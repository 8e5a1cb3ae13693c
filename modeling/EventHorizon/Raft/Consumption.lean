import EventHorizon.Canonical.Laws
import EventHorizon.Raft.Durable

/-!
# Which entry consumes a token

The replay of a log decides `fresh` for an entry exactly when no entry before it consumes the same
`(scope, capability_id)`. Commands are stored in canonical form, which keeps the fields a
consumption reads.
-/

namespace EventHorizon.Raft

/-! ## Consumption and replay -/

/-- The command asks for the consumption of a token. -/
def Command.Consumes (command : Command) (key : String × String) : Prop :=
  Json.lookup command "op" = some (.str "consume") ∧ ∃ claim, command.consumption = .ok (key, claim)

theorem Command.Consumes.unique {command : Command} {key key' : String × String}
    (h : command.Consumes key) (h' : command.Consumes key') : key = key' := by
  obtain ⟨-, claim, hc⟩ := h
  obtain ⟨-, claim', hc'⟩ := h'
  rw [hc, Except.ok.injEq, Prod.mk.injEq] at hc'
  exact hc'.1

section Replay

variable {consumed consumed' : Table (String × String) (String × ℤ)} {command : Command}
  {r : Outcome} {l : List Entry} {rs : List Outcome} {key : String × String} {k : ℕ} {e : Entry}

theorem replayCommand_cases (h : replayCommand consumed command = .ok (r, consumed')) :
    (∀ key, ¬command.Consumes key) ∧ r = .noop ∧ consumed' = consumed ∨
    ∃ key claim, command.Consumes key ∧ consumed' = consumed.insertNew key claim ∧
      (r = .fresh ↔ consumed.get? key = none) := by
  rw [replayCommand] at h
  split at h
  case h_1 hop =>
    cases h
    refine .inl ⟨fun key hc ↦ ?_, rfl, rfl⟩
    have hop' := hc.1
    rw [hop] at hop'
    exact absurd hop' (by decide)
  case h_3 => cases h
  case h_2 hop =>
    obtain ⟨⟨key, claim⟩, hc, h⟩ := bind_eq_ok.mp h
    refine .inr ⟨key, claim, ⟨hop, claim, hc⟩, ?_⟩
    dsimp only at h
    cases hget : consumed.get? key with
    | none =>
      rw [Table.get?_insertNew, if_pos rfl, hget, Option.getD_none, if_neg (fun hne ↦ hne rfl),
        if_neg (by simp)] at h
      cases h
      exact ⟨rfl, by simp⟩
    | some old =>
      rw [hget] at h
      have hfresh : ¬(some old = none) := by simp
      split at h
      · cases h
        exact ⟨rfl, by simp⟩
      · rw [if_pos (by simp)] at h
        cases h
        exact ⟨rfl, by simp⟩

theorem isSome_of_replayCommand (h : replayCommand consumed command = .ok (r, consumed')) :
    (consumed'.get? key).isSome ↔ (consumed.get? key).isSome ∨ command.Consumes key := by
  rcases replayCommand_cases h with ⟨hno, -, rfl⟩ | ⟨key', claim, hc, rfl, -⟩
  · exact ⟨.inl, fun hk ↦ hk.resolve_right (hno key)⟩
  · rw [Table.get?_insertNew]
    by_cases hk : key = key'
    · rw [if_pos hk, hk]
      exact ⟨fun _ ↦ .inr hc, fun _ ↦ rfl⟩
    · rw [if_neg hk]
      exact ⟨.inl, fun h ↦ h.resolve_right fun hc' ↦ hk (hc'.unique hc)⟩

theorem isSome_of_replayFrom (h : replayFrom consumed l = .ok (rs, consumed')) :
    (consumed'.get? key).isSome ↔
      (consumed.get? key).isSome ∨ ∃ e ∈ l, e.command.Consumes key := by
  induction l generalizing consumed rs with
  | nil =>
    cases h
    simp
  | cons e l ih =>
    obtain ⟨r, c, rs', hr, h', -⟩ := replayFrom_cons_eq_ok.mp h
    rw [ih h', isSome_of_replayCommand hr, List.exists_mem_cons_iff, or_assoc]

/-- The replay of a longer log decides the first entries as the replay of a shorter one does. -/
theorem replayFrom_getElem? (h : replayFrom consumed l = .ok (rs, consumed'))
    (he : l[k]? = some e) :
    ∃ rs₁ c₁ r c₂, replayFrom consumed (l.take k) = .ok (rs₁, c₁) ∧
      replayCommand c₁ e.command = .ok (r, c₂) ∧ rs[k]? = some r := by
  have hlt := (List.getElem?_eq_some_iff.mp he).1
  have hsplit : l = l.take k ++ e :: l.drop (k + 1) := by
    nth_rewrite 1 [← List.take_append_drop k l]
    rw [List.drop_eq_getElem_cons hlt, (List.getElem?_eq_some_iff.mp he).2]
  rw [hsplit] at h
  obtain ⟨c₁, h₁⟩ := replayFrom_of_append h
  rw [replayFrom_append h₁, map_eq_ok] at h
  obtain ⟨⟨rs₂, c₃⟩, h₂, hrs⟩ := h
  obtain ⟨r, c₂, rs₃, hr, -, hcons⟩ := replayFrom_cons_eq_ok.mp h₂
  refine ⟨_, c₁, r, c₂, h₁, hr, ?_⟩
  have hcons : rs₂ = r :: rs₃ := hcons
  have hlen : (rs.take (l.take k).length).length = k := by
    rw [replayFrom_length h₁, List.length_take, Nat.min_eq_left (Nat.le_of_lt hlt)]
  have hrs : rs.take (l.take k).length ++ rs₂ = rs := congrArg Prod.fst hrs
  rw [← hrs, hcons, List.getElem?_append_right (Nat.le_of_eq hlen), hlen, Nat.sub_self,
    List.getElem?_cons_zero]

/-- The decision `fresh` is made on the first entry that consumes its token. -/
theorem first_of_fresh (h : replayFrom [] l = .ok (rs, consumed')) (he : l[k]? = some e)
    (hfresh : rs[k]? = some .fresh) :
    ∃ key, e.command.Consumes key ∧ ∀ e' ∈ l.take k, ¬e'.command.Consumes key := by
  obtain ⟨rs₁, c₁, r, c₂, h₁, hr, hrk⟩ := replayFrom_getElem? h he
  rw [hrk, Option.some.injEq] at hfresh
  rcases replayCommand_cases hr with ⟨-, hnoop, -⟩ | ⟨key, claim, hc, -, hiff⟩
  · rw [hnoop] at hfresh
    cases hfresh
  · refine ⟨key, hc, fun e' he' hc' ↦ ?_⟩
    have hsome := (isSome_of_replayFrom h₁).mpr (.inr ⟨e', he', hc'⟩)
    rw [hiff.mp hfresh] at hsome
    cases hsome

end Replay

/-! ## Stored commands -/

/-- The `(scope, capability_id)` of a command. -/
def Command.key (command : Command) : Option (String × String) :=
  match Json.lookup command "scope", Json.lookup command "capability_id" with
  | some (.str scope), some (.str token) => some (scope, token)
  | _, _ => none

section Stored

variable [Platform] {command stored : Command}

theorem canonicalCommand_eq_ok :
    canonicalCommand command = .ok stored ↔ canonical (.obj command) = .ok (.obj stored) := by
  rw [canonicalCommand, map_eq_ok]
  constructor
  · rintro ⟨v, hv, rfl⟩
    obtain ⟨-, -, fields, rfl, -, -⟩ := canonicalValue_obj_eq_ok.mp hv
    exact hv
  · intro h
    exact ⟨_, h, rfl⟩

theorem canonicalCommand_idem (h : canonicalCommand command = .ok stored) :
    canonicalCommand stored = .ok stored :=
  canonicalCommand_eq_ok.mpr (canonicalValue_idem 0 _ (canonicalCommand_eq_ok.mp h))

theorem lookup_stored_str (h : canonicalCommand command = .ok stored) {k s : String}
    (hk : Json.lookup command k = some (.str s)) : Json.lookup stored k = some (.str s) := by
  have hlookup := lookup_canonical (canonicalCommand_eq_ok.mp h) k
  rw [hk, Option.map_some] at hlookup
  obtain ⟨v, hv, hok⟩ := Option.map_eq_some_iff.mp hlookup.symm
  rw [canonicalValue] at hok
  obtain ⟨s', hs, rfl⟩ := map_eq_ok.mp hok.symm
  rw [hv, canonicalString_eq_ok hs]

omit [Platform] in
theorem key_of_checkProposal (h : Node.checkProposal command = .ok ()) :
    ∃ scope token, Json.lookup command "scope" = some (.str scope) ∧
      Json.lookup command "capability_id" = some (.str token) := by
  rw [Node.checkProposal] at h
  split at h
  case h_2 => cases h
  case h_1 scope hop hscope =>
    obtain ⟨-, h⟩ := throw_if_eq_ok.mp h
    obtain ⟨v, hv, h⟩ := bind_eq_ok.mp h
    obtain ⟨binding, -, h⟩ := bind_eq_ok.mp h
    obtain ⟨expiry, -, h⟩ := bind_eq_ok.mp h
    obtain ⟨consumedAt, -, h⟩ := bind_eq_ok.mp h
    obtain ⟨consumption, hc, -⟩ := bind_eq_ok.mp h
    obtain ⟨hstr, -⟩ := Replay.validateTransition_ok hc
    refine ⟨scope, consumption.capabilityId, hscope, ?_⟩
    rw [Command.require] at hv
    split at hv
    case h_1 w hw =>
      cases hv
      rw [hw, hstr]
    case h_2 => cases hv

/-- The token that a stored proposal consumes is the one the proposal named. -/
theorem key_of_consumes (hcheck : Node.checkProposal command = .ok ())
    (hstored : canonicalCommand command = .ok stored) {key : String × String}
    (hc : stored.Consumes key) : command.key = some key := by
  obtain ⟨scope, token, hscope, htoken⟩ := key_of_checkProposal hcheck
  obtain ⟨-, claim, hc⟩ := hc
  rw [Command.key, hscope, htoken]
  rw [Command.consumption] at hc
  obtain ⟨s, hs, hc⟩ := bind_eq_ok.mp hc
  obtain ⟨t, ht, hc⟩ := bind_eq_ok.mp hc
  obtain ⟨binding, -, hc⟩ := bind_eq_ok.mp hc
  obtain ⟨expiry, -, hc⟩ := bind_eq_ok.mp hc
  obtain ⟨consumedAt, -, hc⟩ := bind_eq_ok.mp hc
  obtain ⟨consumption, hv, hc⟩ := bind_eq_ok.mp hc
  obtain ⟨text, htext, hc⟩ := bind_eq_ok.mp hc
  rw [Command.require, lookup_stored_str hstored hscope, Except.ok.injEq] at hs
  rw [Command.require, lookup_stored_str hstored htoken, Except.ok.injEq] at ht
  subst hs ht
  have htok : token = consumption.capabilityId := by
    have h := (Replay.validateTransition_ok hv).1
    exact Json.str.inj h
  cases htext
  cases hc
  rw [htok]

end Stored

end EventHorizon.Raft
