import RedisPy.Spec.SentinelReplies
import RedisPy.Library.Fallible
import Mathlib.Tactic.Basic

/-! What the callbacks of the two protocols make of the same sentinel state. A master's state
keeps its flags as text under RESP2 and as a set without the derived flags under RESP3, and
the masters come in a dictionary under one and in a list under the other. -/

namespace RedisPy

namespace SentinelReplies

/-- `v == w`; the elements of a set have no order. -/
def ValueSame : StateValue → StateValue → Prop
  | .flagSet a, .flagSet b => ∀ flag, flag ∈ a ↔ flag ∈ b
  | v, w => v = w

/-- `s == s'`; the items of a dictionary have no order. -/
def StateSame (s s' : ParsedState) : Prop :=
  ∀ k, Option.Rel (fun p p' => ValueSame p.2 p'.2) (s.get? k) (s'.get? k)

/-- The same structure, with the same states in it. -/
def MastersSame : MastersReply → MastersReply → Prop
  | .dict a, .dict b => ∀ name, Option.Rel (fun p p' => StateSame p.2 p'.2) (a.get? name) (b.get? name)
  | .list a, .list b => List.Forall₂ StateSame a b
  | _, _ => False

/-- Two calls return the same or raise the same. -/
def Agrees {α : Type} (same : α → α → Prop) : Except Exc α → Except Exc α → Prop
  | .ok a, .ok b => same a b
  | .error e, .error e' => e = e'
  | _, _ => False

/-- The state is the same whichever protocol the sentinels are asked over, and so is what is
discovered, with sentinels that answer with it or fail. -/
def ProtocolsAgree (masters slaves : List Monitored) : Prop :=
  Agrees MastersSame (sentinelMasters .resp2 masters) (sentinelMasters .resp3 masters) ∧
  (∀ m ∈ masters, Agrees StateSame (sentinelMaster .resp2 m) (sentinelMaster .resp3 m)) ∧
  Agrees (List.Forall₂ StateSame) (sentinelSlaves .resp2 slaves) (sentinelSlaves .resp3 slaves) ∧
  (∀ answers, (∀ a ∈ answers, a = .ok masters ∨ ∃ e, a = .error e) →
    ∀ min_other_sentinels describe service_name,
      discoverMaster min_other_sentinels describe .resp2 service_name 0 [] answers =
        discoverMaster min_other_sentinels describe .resp3 service_name 0 [] answers) ∧
  ∀ answers, (∀ a ∈ answers, a = .ok slaves ∨ ∃ e, a = .error e) →
    discoverSlaves .resp2 answers = discoverSlaves .resp3 answers

section States

theorem pairsToDictTyped_pairs (fields : List (ClientText × ClientText)) (d : ParsedState) :
    pairsToDictTyped d (fields.flatMap fun f => [f.1, f.2]) =
      (fields.map fun f => (f.1, typed f.1 f.2)).foldl Keyed.put d := by
  induction fields generalizing d with
  | nil => rfl
  | cons f fields ih => exact ih _

/-- The fields of a state as text. -/
def Monitored.texts (m : Monitored) : List (ClientText × ClientText) :=
  m.fields.map fun f => (.str (strIfBytes f.1), .str (strIfBytes f.2))

/-- The fields of a state in a dictionary, before the flags are split. -/
def Monitored.typedTexts (m : Monitored) : ParsedState :=
  (m.texts.map fun f => (f.1, typed f.1 f.2)).foldl Keyed.put ∅

theorem flat_map_text (m : Monitored) :
    (m.flat.map fun x => ClientText.str (strIfBytes x)) = m.texts.flatMap fun f => [f.1, f.2] := by
  rw [Monitored.flat, Monitored.texts, List.map_flatMap, List.flatMap_map]
  rfl

theorem exists_text {m : Monitored} {name : String} (h : ∃ f ∈ m.fields, strIfBytes f.1 = name.toList) :
    ∃ p ∈ m.texts.map fun f => (f.1, typed f.1 f.2), p.1 = key name := by
  obtain ⟨f, hf, hname⟩ := h
  refine ⟨_, List.mem_map_of_mem (List.mem_map_of_mem hf), ?_⟩
  simp [key, hname]

/-- A state whose flags can be split is parsed. -/
theorem parseSentinelState_eq {item : List ClientText} {v : StateValue} {flags : List Chars}
    (hget : getItem (pairsToDictTyped ∅ item) (key "flags") = .ok v) (hflags : splitFlags v = .ok flags) :
    parseSentinelState item = .ok ((derivedFlags.map fun p =>
      (key p.1, StateValue.bool (flags.contains p.2.toList))).foldl Keyed.put
        (pairsToDictTyped ∅ item)) := by
  rw [List.foldl_map]
  simp only [parseSentinelState, hget, hflags, bind, Except.bind, pure, Except.pure]

theorem get?_foldl_put_derived {k : ClientText} (hk : ∀ p ∈ derivedFlags, k ≠ key p.1)
    {flags : List Chars} (d : ParsedState) :
    ((derivedFlags.map fun p => (key p.1, StateValue.bool (flags.contains p.2.toList))).foldl
      Keyed.put d).get? k = d.get? k := by
  refine Keyed.get?_foldl_put_of_not_mem ?_ d
  intro p hp
  obtain ⟨q, hq, rfl⟩ := List.mem_map.mp hp
  exact hk q hq

/-- Under RESP2 a state is parsed, its flags stay text, and it keeps its name. -/
theorem parseSentinelMaster_ok (m : Monitored) :
    ∃ s, parseSentinelState (m.flat.map fun x => .str (strIfBytes x)) = .ok s ∧
      (∃ t, s.get? (key "flags") = some (key "flags", .text t)) ∧
      ∃ v, s.get? (key "name") = some (key "name", v) := by
  obtain ⟨⟨-, v⟩, hmem, rfl, hv⟩ :=
    Keyed.exists_get?_foldl_put (exists_text m.has_flags) (∅ : ParsedState)
  obtain ⟨⟨-, n⟩, -, rfl, hn⟩ := Keyed.exists_get?_foldl_put (exists_text m.has_name) (∅ : ParsedState)
  obtain ⟨t, rfl⟩ : ∃ t, v = .text (.str t) := by
    obtain ⟨g, hg, he⟩ := List.mem_map.mp hmem
    obtain ⟨f, -, rfl⟩ := List.mem_map.mp hg
    obtain ⟨hk, rfl⟩ := Prod.mk.inj he
    have hnot : key "flags" ∉ stateTypes := by decide
    rw [hk, typed, if_neg hnot]
    exact ⟨_, rfl⟩
  refine ⟨(derivedFlags.map fun p => (key p.1, StateValue.bool ((t.splitOn ',').contains
    p.2.toList))).foldl Keyed.put m.typedTexts, ?_, ⟨.str t, ?_⟩, ⟨n, ?_⟩⟩
  · have hdict : pairsToDictTyped ∅ (m.flat.map fun x => ClientText.str (strIfBytes x)) =
        m.typedTexts := by rw [flat_map_text, pairsToDictTyped_pairs, Monitored.typedTexts]
    rw [parseSentinelState_eq (v := .text (.str t)), hdict]
    · rw [hdict, getItem, Monitored.typedTexts, hv]
    · rfl
  · rw [get?_foldl_put_derived (by decide)]
    exact hv
  · rw [get?_foldl_put_derived (by decide)]
    exact hn

/-- Under RESP3 a parsed state has its flags in a set. -/
theorem flags_of_parseSentinelStateResp3 {response : Dict ClientText ClientText} {s : ParsedState}
    (h : parseSentinelStateResp3 response = .ok s) :
    ∃ flags, s.get? (key "flags") = some (key "flags", .flagSet flags) := by
  obtain ⟨result, -, h⟩ := Fallible.bind_ok h
  obtain ⟨v, -, h⟩ := Fallible.bind_ok h
  obtain ⟨flags, -, h⟩ := Fallible.bind_ok h
  cases h
  exact ⟨flags, Keyed.get?_put_self result (key "flags", .flagSet flags)⟩

theorem not_stateSame {s s' : ParsedState} {t : ClientText} {flags : List Chars}
    (h : s.get? (key "flags") = some (key "flags", .text t))
    (h' : s'.get? (key "flags") = some (key "flags", .flagSet flags)) : ¬ StateSame s s' := by
  intro hs
  have hf := hs (key "flags")
  rw [h, h'] at hf
  cases hf with
  | some hv => cases hv

/-- No state is the same under the two protocols. -/
theorem sentinelMaster_differs (m : Monitored) :
    ¬ Agrees StateSame (sentinelMaster .resp2 m) (sentinelMaster .resp3 m) := by
  obtain ⟨s, hs, ⟨t, ht⟩, -⟩ := parseSentinelMaster_ok m
  intro h
  rw [sentinelMaster, parseSentinelMaster, hs, sentinelMaster] at h
  cases h3 : parseSentinelStateResp3 m.map with
  | error e => rw [h3] at h; exact h
  | ok s' =>
    rw [h3] at h
    obtain ⟨flags, hf⟩ := flags_of_parseSentinelStateResp3 h3
    exact not_stateSame ht hf h

end States

section Masters

theorem readMasters_ok (masters : List Monitored) (result : Dict StateValue ParsedState) :
    ∃ d, readMasters result (masters.map Monitored.flat) = .ok d := by
  induction masters generalizing result with
  | nil => exact ⟨result, rfl⟩
  | cons m masters ih =>
    obtain ⟨s, hs, -, v, hv⟩ := parseSentinelMaster_ok m
    obtain ⟨d, hd⟩ := ih (result.put (v, s))
    refine ⟨d, ?_⟩
    have hname : getItem s (key "name") = .ok v := by rw [getItem, hv]
    rw [List.map_cons, readMasters, hs]
    change (getItem s (key "name") >>= fun name => readMasters (result.put (name, s)) _) = _
    rw [hname]
    exact hd

theorem sentinelMasters_resp2 (masters : List Monitored) :
    ∃ d, sentinelMasters .resp2 masters = .ok (.dict d) := by
  obtain ⟨d, hd⟩ := readMasters_ok masters ∅
  exact ⟨d, by rw [sentinelMasters, parseSentinelMasters, hd]; rfl⟩

theorem sentinelMasters_resp3 {masters : List Monitored} {reply : MastersReply}
    (h : sentinelMasters .resp3 masters = .ok reply) : ∃ states, reply = .list states := by
  obtain ⟨states, -, rfl⟩ := Fallible.map_ok h
  exact ⟨states, rfl⟩

/-- The masters come in a dictionary under one protocol and in a list under the other. -/
theorem sentinelMasters_differ (masters : List Monitored) :
    ¬ Agrees MastersSame (sentinelMasters .resp2 masters) (sentinelMasters .resp3 masters) := by
  obtain ⟨d, hd⟩ := sentinelMasters_resp2 masters
  intro h
  rw [hd] at h
  cases h3 : sentinelMasters .resp3 masters with
  | error e => rw [h3] at h; exact h
  | ok reply =>
    obtain ⟨states, rfl⟩ := sentinelMasters_resp3 h3
    rw [h3] at h
    exact h

/-- The replicas agree only when there is none. -/
theorem sentinelSlaves_agree_iff (slaves : List Monitored) :
    Agrees (List.Forall₂ StateSame) (sentinelSlaves .resp2 slaves) (sentinelSlaves .resp3 slaves) ↔
      slaves = [] := by
  constructor
  · intro h
    obtain ⟨states, hstates⟩ : ∃ states, sentinelSlaves .resp2 slaves = .ok states := by
      refine Fallible.exists_mapM_ok_iff.mpr ?_
      intro item hitem
      obtain ⟨m, -, rfl⟩ := List.mem_map.mp hitem
      obtain ⟨s, hs, -⟩ := parseSentinelMaster_ok m
      exact ⟨s, hs⟩
    rw [hstates] at h
    cases h3 : sentinelSlaves .resp3 slaves with
    | error e => rw [h3] at h; exact h.elim
    | ok states' =>
      rw [h3] at h
      cases slaves with
      | nil => rfl
      | cons m slaves =>
        rw [sentinelSlaves, parseSentinelSlaves, List.map_cons] at hstates
        rw [sentinelSlaves, parseSentinelSlavesResp3, List.map_cons] at h3
        obtain ⟨s, rest, hs, -, rfl⟩ := Fallible.mapM_cons_ok hstates
        obtain ⟨s', rest', hs', -, rfl⟩ := Fallible.mapM_cons_ok h3
        obtain ⟨r, hr, ⟨t, ht⟩, -⟩ := parseSentinelMaster_ok m
        obtain ⟨flags, hflags⟩ := flags_of_parseSentinelStateResp3 hs'
        rw [hs] at hr
        cases hr
        exact absurd (List.forall₂_cons.mp h).1 (not_stateSame ht hflags)
  · rintro rfl
    exact List.Forall₂.nil

end Masters

section Discovery

variable (min_other_sentinels : Int) (describe : Nat → Exc → String)

/-- Over RESP3 no master is ever discovered. -/
theorem discoverMaster_resp3_raises (service_name : Chars) (sentinel_no : Nat)
    (collected_errors : List String) (answers : List (Except Exc (List Monitored))) :
    ∃ e, discoverMaster min_other_sentinels describe .resp3 service_name sentinel_no collected_errors
      answers = .error e := by
  induction answers generalizing sentinel_no collected_errors with
  | nil => exact ⟨_, rfl⟩
  | cons answer answers ih =>
    rw [discoverMaster]
    cases hans : answer.bind (sentinelMasters .resp3) with
    | error e =>
      by_cases he : e.isinstanceAny [.ConnectionError, .TimeoutError] = true
      · simpa [he] using ih _ _
      · exact ⟨e, by simp [he]⟩
    | ok reply =>
      obtain ⟨masters, -, hmasters⟩ := Fallible.bind_ok hans
      obtain ⟨states, rfl⟩ := sentinelMasters_resp3 hmasters
      exact ⟨_, rfl⟩

end Discovery

/-- No sentinel state is the same under the two protocols: no reply to `MASTERS` or `MASTER`, none
to `SLAVES` that is not empty, and over RESP3 no master is ever discovered. -/
theorem sentinel_protocols_never_agree (masters slaves : List Monitored) :
    ¬ ProtocolsAgree masters slaves ∧
      ¬ Agrees MastersSame (sentinelMasters .resp2 masters) (sentinelMasters .resp3 masters) ∧
      (∀ m : Monitored, ¬ Agrees StateSame (sentinelMaster .resp2 m) (sentinelMaster .resp3 m)) ∧
      (Agrees (List.Forall₂ StateSame) (sentinelSlaves .resp2 slaves) (sentinelSlaves .resp3 slaves) ↔
        slaves = []) ∧
      ∀ min_other_sentinels describe service_name sentinel_no collected_errors answers, ∃ e,
        discoverMaster min_other_sentinels describe .resp3 service_name sentinel_no collected_errors
          answers = .error e :=
  ⟨fun h => sentinelMasters_differ masters h.1, sentinelMasters_differ masters, sentinelMaster_differs,
    sentinelSlaves_agree_iff slaves, discoverMaster_resp3_raises⟩

/-- The state of one master, as a sentinel tells it over connections that decode. -/
def mymaster : Monitored where
  fields := [("name", "mymaster"), ("ip", "10.0.0.1"), ("port", "6379"), ("runid", "a1"),
    ("flags", "master"), ("num-other-sentinels", "2")].map fun f => (key f.1, key f.2)
  nodup := by decide
  has_flags := ⟨(key "flags", key "master"), by simp, rfl⟩
  has_name := ⟨(key "name", key "mymaster"), by simp, rfl⟩

theorem mymaster_differs : ¬ ProtocolsAgree [mymaster] [] :=
  fun h => sentinelMasters_differ [mymaster] h.1

end SentinelReplies

end RedisPy
