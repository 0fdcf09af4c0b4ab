import RedisPy.Spec.PooledCalls

/-! What calls on a pooled connection send for their user. -/

namespace RedisPy

namespace Handshake

open Raising

/-- What has been sent for the user, without a send that has raised. -/
def Wire.asked (s : Wire) : List Request := (s.sent.map Prod.fst).filter fun r => !r.ofConnect

/-- The requests of a call. -/
def Call.batch : Call → List Request
  | .execute_command n => [.command n]
  | .execute _ [] _ => []
  | .execute true ns _ => .MULTI :: ns.map .command ++ [.EXEC]
  | .execute false ns _ => ns.map .command
  | .disconnect => []

/-- Some error that the client retries at all does not end the call. -/
def Client.Resends (client : Client) : Prop :=
  ∃ e, client.supported_errors e = true ∧ client.retry_on_error e = true

section
variable (net : Network) (c : Settings) (client : Client)

/-- The call does not raise. -/
def returns (s : Wire) : Call → Bool
  | .execute_command n => isOk ((executeCommand net c client n).run s)
  | .execute transaction ns raise_on_error => isOk ((execute net c client transaction ns raise_on_error).run s)
  | .disconnect => isOk (disconnect.run s)

/-- The requests of calls in a row, each call's as a whole and a number of times: not none if it
returns, and not twice if the client does not resend. -/
inductive SentFor : Wire → List Call → List Request → Prop where
  | nil {s : Wire} : SentFor s [] []
  | cons {s : Wire} {call : Call} {calls : List Call} {sent : List Request} (times : Nat)
      (hmost : times ≤ client.retries + 1) (hagain : 2 ≤ times → client.Resends)
      (hreturns : returns net c client s call = true → 1 ≤ times)
      (hsent : SentFor (step net c client s call) calls sent) :
      SentFor s (call :: calls) ((List.replicate times call.batch).flatten ++ sent)

end

end Handshake

end RedisPy
