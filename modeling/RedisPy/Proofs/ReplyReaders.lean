import RedisPy.Spec.ReplyStream

/-! The sync parsers run the readers of the asyncio parsers, and a reader that is given more
depth makes the same of a stream. -/

namespace RedisPy

open TokenReader Raising Reading

namespace ReplyReader

variable {φ σ : Type} (S : Source Exc Bytes φ PyVal σ)

theorem exec_ofExcept {α : Type} (x : Except Exc α) : S.exec (Reader.ofExcept x) = raising x := by
  cases x <;> rfl

theorem exec_decoded (encoder : Encoder) (disable_decoding : Bool) (response : PyVal) :
    S.exec (decoded encoder disable_decoding response) =
      if disable_decoding = false then raising (encoder.decode response) else pure response := by
  unfold decoded
  split
  · exact exec_ofExcept S _
  · rfl

theorem exec_errorReply (hclear : S.clear = pure ()) (text : Bytes) :
    S.exec (errorReply text) =
      let error := parseError (decodeReplace text)
      if error.isinstance .ConnectionError then throw error else pure (PyVal.exc error) := by
  unfold errorReply
  dsimp only
  split
  · rw [Source.exec, hclear, pure_bind]
  · rfl

end ReplyReader

open ReplyReader

theorem RESP2Parser._readResponse_eq_exec (p : RESP2Parser) (disable_decoding : Bool) (fuel : Nat) :
    p._readResponse disable_decoding fuel =
      SocketBuffer.source.exec (reply p.encoder disable_decoding closedByServer fuel) := by
  induction fuel with
  | zero => rfl
  | succ fuel ih =>
    unfold RESP2Parser._readResponse reply
    rw [Source.exec]
    refine congrArg _ (funext fun raw => ?_)
    cases raw with
    | nil => rfl
    | cons byte response =>
      dsimp only
      simp only [apply_ite (Source.exec SocketBuffer.source)]
      refine if_congr Iff.rfl ?_ (if_congr Iff.rfl ?_ (if_congr Iff.rfl ?_ (if_congr Iff.rfl ?_
        (if_congr Iff.rfl ?_ (if_congr Iff.rfl ?_ (if_congr Iff.rfl ?_ ?_))))))
      · exact (exec_errorReply _ rfl response).symm
      · exact (exec_decoded _ p.encoder disable_decoding (.bytes response)).symm
      · rw [Source.exec_bind, exec_ofExcept]
        rfl
      · rfl
      · rw [Source.exec_bind, exec_ofExcept]
        refine congrArg _ (funext fun n => congrArg _ (funext fun b => ?_))
        exact (exec_decoded _ p.encoder disable_decoding (.bytes b)).symm
      · rfl
      · rw [Source.exec_bind, exec_ofExcept]
        refine congrArg _ (funext fun n => ?_)
        rw [Source.exec_bind, Source.exec_many, ← ih]
        refine congrArg _ (funext fun xs => ?_)
        exact (exec_decoded _ p.encoder disable_decoding (.list xs)).symm
      · rfl

/-! ### The depth -/

section
variable {encoder : Encoder} {disable_decoding : Bool} {blank blank' : Exc} {h : Empty → Except Exc PyVal}

/-- A depth of as many as there are tokens is enough, and an empty line is no reply. -/
theorem RESP2Parser.within_reply (n m k : Nat) (hk : k ≤ m) :
    Reader.Within h k (reply encoder disable_decoding blank n) (reply encoder disable_decoding blank' m) := by
  induction m generalizing n k with
  | zero =>
    obtain rfl := Nat.le_zero.mp hk
    cases n with
    | zero => exact fun _ _ _ _ _ hy => nomatch hy
    | succ n => exact Reader.within_line_zero
  | succ m ih =>
    cases n with
    | zero => exact fun _ _ _ _ _ hy => nomatch hy
    | succ n =>
      cases k with
      | zero => exact Reader.within_line_zero
      | succ k =>
        have hdeep := ih n k (Nat.le_of_succ_le_succ hk)
        refine Reader.Within.line fun raw => ?_
        cases raw with
        | nil => exact fun _ _ _ _ _ hy => nomatch hy
        | cons byte response =>
          refine Reader.Within.ite (Reader.Within.refl k _) (Reader.Within.ite (Reader.Within.refl k _)
            (Reader.Within.ite (Reader.Within.refl k _) (Reader.Within.ite (Reader.Within.refl k _)
              (Reader.Within.ite (Reader.Within.refl k _) (Reader.Within.ite (Reader.Within.refl k _)
                (Reader.Within.ite ?_ (Reader.Within.refl k _)))))))
          exact (Reader.Within.refl k _).bind fun i => (hdeep.many i.toNat).bind fun xs => Reader.Within.refl k _

end

namespace RESP3Parser

variable (p : RESP3Parser)

/-- The source of the sync parser. -/
abbrev source : Source Exc Bytes (List PyVal) PyVal (SocketBuffer × List (PushHandler × PyVal)) :=
  SocketBuffer.source.logged p.handlePushResponse

theorem _readResponse_eq_exec (disable_decoding : Bool) (fuel : Nat) (push_request : Bool) :
    p._readResponse disable_decoding fuel push_request =
      p.source.exec (reply p disable_decoding closedByServer fuel push_request) := by
  induction fuel generalizing push_request with
  | zero => rfl
  | succ fuel ih =>
    unfold RESP3Parser._readResponse reply
    rw [Source.exec]
    refine congrArg _ (funext fun raw => ?_)
    cases raw with
    | nil => rfl
    | cons byte response =>
      dsimp only
      simp only [apply_ite (Source.exec p.source)]
      by_cases herror : byte = ascii '-'
      · rw [if_pos (.inl herror), if_pos herror, if_neg (by rw [herror]; decide)]
        exact (exec_errorReply _ rfl response).symm
      by_cases hblob : byte = ascii '!'
      · rw [if_pos (.inr hblob), if_neg herror, if_pos hblob, if_pos hblob, Source.exec_bind, exec_ofExcept]
        refine congrArg _ (funext fun n => congrArg _ (funext fun b => ?_))
        exact (exec_errorReply _ rfl b).symm
      rw [if_neg (not_or.mpr ⟨herror, hblob⟩), if_neg herror, if_neg hblob]
      refine if_congr Iff.rfl ?_ (if_congr Iff.rfl ?_ (if_congr Iff.rfl ?_ (if_congr Iff.rfl ?_
        (if_congr Iff.rfl ?_ (if_congr Iff.rfl ?_ (if_congr Iff.rfl ?_ (if_congr Iff.rfl ?_
          (if_congr Iff.rfl ?_ (if_congr Iff.rfl ?_ ?_)))))))))
      · exact (exec_decoded _ p.encoder disable_decoding (.bytes response)).symm
      · rfl
      · rw [Source.exec_bind, exec_ofExcept]
        rfl
      · exact (exec_ofExcept _ _).symm
      · rfl
      · rw [Source.exec_bind, exec_ofExcept]
        refine congrArg _ (funext fun n => congrArg _ (funext fun b => ?_))
        exact (exec_decoded _ p.encoder disable_decoding (.bytes b)).symm
      · rw [Source.exec_bind, exec_ofExcept]
        refine congrArg _ (funext fun n => congrArg _ (funext fun b => ?_))
        exact (exec_decoded _ p.encoder disable_decoding (.bytes (b.drop 4))).symm
      · rw [Source.exec_bind, exec_ofExcept]
        refine congrArg _ (funext fun n => ?_)
        rw [Source.exec_bind, Source.exec_many, ← ih]
        rfl
      · rw [Source.exec_bind, exec_ofExcept]
        refine congrArg _ (funext fun n => ?_)
        rw [Source.exec_bind, Source.exec_fold]
        refine congrArg (· >>= _) (congrArg (fun f => readFold f n.toNat []) (funext fun items => ?_))
        rw [Source.exec_bind, ← ih]
        refine congrArg _ (funext fun key => ?_)
        rw [Source.exec_bind, ← ih]
        refine congrArg _ (funext fun value => ?_)
        rw [apply_ite (Source.exec p.source)]
        rfl
      · rw [Source.exec_bind, exec_ofExcept]
        refine congrArg _ (funext fun n => ?_)
        rw [Source.exec_bind, Source.exec_many, ← ih]
        refine congrArg _ (funext fun xs => ?_)
        rw [Source.exec]
        refine congrArg _ (funext fun r => ?_)
        rw [apply_ite (Source.exec p.source), ← ih]
        rfl
      · rfl

variable {p} {disable_decoding : Bool} {blank blank' : Exc} {h : List PyVal → Except Exc PyVal}

theorem within_reply (n m k : Nat) (push_request : Bool) (hk : k ≤ m) :
    Reader.Within h k (reply p disable_decoding blank n push_request)
      (reply p disable_decoding blank' m push_request) := by
  induction m generalizing n k push_request with
  | zero =>
    obtain rfl := Nat.le_zero.mp hk
    cases n with
    | zero => exact fun _ _ _ _ _ hy => nomatch hy
    | succ n => exact Reader.within_line_zero
  | succ m ih =>
    cases n with
    | zero => exact fun _ _ _ _ _ hy => nomatch hy
    | succ n =>
      cases k with
      | zero => exact Reader.within_line_zero
      | succ k =>
        have hdeep := fun push_request => ih n k push_request (Nat.le_of_succ_le_succ hk)
        have hsame := fun r : ReplyReader (List PyVal) => @Reader.Within.refl _ _ _ _ _ h k r
        refine Reader.Within.line fun raw => ?_
        cases raw with
        | nil => exact fun _ _ _ _ _ hy => nomatch hy
        | cons byte response =>
          refine Reader.Within.ite (hsame _) (Reader.Within.ite (hsame _) (Reader.Within.ite (hsame _)
            (Reader.Within.ite (hsame _) (Reader.Within.ite (hsame _) (Reader.Within.ite (hsame _)
              (Reader.Within.ite (hsame _) (Reader.Within.ite (hsame _) (Reader.Within.ite (hsame _)
                (Reader.Within.ite ?_ (Reader.Within.ite ?_ (Reader.Within.ite ?_ (hsame _))))))))))))
          · exact (Reader.Within.refl k _).bind fun i =>
              ((hdeep false).many i.toNat).bind fun xs => hsame _
          · refine (Reader.Within.refl k _).bind fun i => Reader.Within.bind ?_ fun items => hsame _
            refine Reader.Within.fold (fun items => ?_) i.toNat []
            exact (hdeep false).bind fun key => (hdeep push_request).bind fun value => Reader.Within.refl k _
          · refine (Reader.Within.refl k _).bind fun i => ((hdeep push_request).many i.toNat).bind fun xs => ?_
            refine Reader.Within.push fun r => ?_
            exact Reader.Within.ite (hdeep push_request) (hsame _)

end RESP3Parser

end RedisPy
