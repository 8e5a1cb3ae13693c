import Mathlib.Data.List.Basic
import Mathlib.Data.List.Nodup

/-!
# Keyed tables

A table is the list of its rows, a key and a value each, in the order they were inserted. The
operations are those of a table with a primary key: look a key up, insert a row unless the key is
taken, insert or replace, delete by a condition on the key.

`numberedFrom i l` is the table that holds the values of `l` under the consecutive keys `i`,
`i + 1`, and so on. A log with no gap is a numbered table, and on numbered tables each operation is
the corresponding operation on lists.
-/

namespace EventHorizon

/-- The rows of a table in insertion order. -/
abbrev Table (κ ν : Type*) := List (κ × ν)

namespace Table

variable {κ ν : Type*} [DecidableEq κ]

/-- The value under a key. -/
def get? : Table κ ν → κ → Option ν
  | [], _ => none
  | (k', v) :: t, k => if k' = k then some v else get? t k

/-- Insert or replace. -/
def put : Table κ ν → κ → ν → Table κ ν
  | [], k, v => [(k, v)]
  | (k', v') :: t, k, v => if k' = k then (k, v) :: t else (k', v') :: put t k v

/-- Insert unless the key is taken. -/
def insertNew (t : Table κ ν) (k : κ) (v : ν) : Table κ ν :=
  if (t.get? k).isSome then t else t ++ [(k, v)]

section

-- the equations are made here once, not in each of the proofs that follow
attribute [local simp] get? put

end

variable {t : Table κ ν} {k k' : κ} {v : ν}

@[simp] theorem get?_nil : get? ([] : Table κ ν) k = none := rfl

theorem get?_cons (v : ν) (t : Table κ ν) :
    get? ((k', v) :: t) k = if k' = k then some v else get? t k := rfl

theorem get?_append (s t : Table κ ν) : get? (s ++ t) k = (get? s k).or (get? t k) := by
  induction s with
  | nil => rfl
  | cons r s ih =>
    rw [List.cons_append, get?_cons, get?_cons, ih]
    split <;> rfl

@[simp] theorem get?_put_self : get? (t.put k v) k = some v := by
  induction t with
  | nil => rw [put, get?_cons, if_pos rfl]
  | cons r t ih =>
    rw [put]
    split
    · rw [get?_cons, if_pos rfl]
    case isFalse h => rw [get?_cons, if_neg h, ih]

theorem get?_put_ne (h : k' ≠ k) : get? (t.put k v) k' = get? t k' := by
  induction t with
  | nil => rw [put, get?_cons, if_neg h.symm]
  | cons r t ih =>
    rw [put, get?_cons]
    split
    case isTrue hk =>
      subst hk
      rw [get?_cons, if_neg h.symm, if_neg h.symm]
    case isFalse => rw [get?_cons, ih]

theorem get?_put : get? (t.put k v) k' = if k' = k then some v else get? t k' := by
  split
  case isTrue h => rw [h, get?_put_self]
  case isFalse h => rw [get?_put_ne h]

theorem mem_of_mem_put {r : κ × ν} (h : r ∈ t.put k v) : r = (k, v) ∨ r ∈ t := by
  induction t with
  | nil => exact .inl (List.mem_singleton.mp h)
  | cons s t ih =>
    rw [put] at h
    split at h
    · rcases List.mem_cons.mp h with h | h
      · exact .inl h
      · exact .inr (List.mem_cons_of_mem _ h)
    · rcases List.mem_cons.mp h with h | h
      · exact .inr (h ▸ List.mem_cons_self)
      · exact (ih h).imp id (List.mem_cons_of_mem _)

theorem mem_put_self : (k, v) ∈ t.put k v := by
  induction t with
  | nil => exact List.mem_singleton_self _
  | cons r t ih =>
    rw [put]
    split
    · exact List.mem_cons_self
    · exact List.mem_cons_of_mem _ ih

/-- An update keeps every row but the one it replaces. -/
theorem mem_put_or {r : κ × ν} (h : r ∈ t) : r ∈ t.put k v ∨ r.1 = k ∧ t.get? k = some r.2 := by
  induction t with
  | nil => cases h
  | cons s t ih =>
    rw [put, get?_cons]
    rcases List.mem_cons.mp h with rfl | h
    · split
      case isTrue hk => exact .inr ⟨hk, rfl⟩
      case isFalse => exact .inl List.mem_cons_self
    · split
      · exact .inl (List.mem_cons_of_mem _ h)
      case isFalse hk => exact (ih h).imp (List.mem_cons_of_mem _) id

theorem keys_put_of_mem (h : k ∈ t.map Prod.fst) : (t.put k v).map Prod.fst = t.map Prod.fst := by
  induction t with
  | nil => cases h
  | cons r t ih =>
    rw [put]
    split
    case isTrue hk => rw [List.map_cons, List.map_cons, hk]
    case isFalse hk =>
      rw [List.map_cons, List.mem_cons] at h
      rw [List.map_cons, List.map_cons, ih (h.resolve_left (Ne.symm hk))]

/-- A key that is new comes last. -/
theorem put_of_notMem (h : k ∉ t.map Prod.fst) : t.put k v = t ++ [(k, v)] := by
  induction t with
  | nil => rfl
  | cons r t ih =>
    rw [List.map_cons, List.mem_cons, not_or] at h
    rw [put, if_neg (Ne.symm h.1), ih h.2, List.cons_append]

/-- Rows with new keys come last, one after the other. -/
theorem foldl_put {s : Table κ ν} (h : (t.map Prod.fst ++ s.map Prod.fst).Nodup) :
    s.foldl (fun t r ↦ put t r.1 r.2) t = t ++ s := by
  induction s generalizing t with
  | nil => rw [List.foldl_nil, List.append_nil]
  | cons r s ih =>
    rw [List.map_cons] at h
    have hnew : r.1 ∉ t.map Prod.fst := fun hmem ↦
      (List.nodup_append.mp h).2.2 _ hmem _ List.mem_cons_self rfl
    rw [List.foldl_cons, put_of_notMem hnew, ih, List.append_assoc, List.singleton_append]
    rw [List.map_append, List.map_singleton, List.append_assoc, List.singleton_append]
    exact h

theorem put_put {v' : ν} : (t.put k v).put k v' = t.put k v' := by
  induction t with
  | nil => rw [put, put, put, if_pos rfl]
  | cons r t ih =>
    rw [put, put]
    split
    · rw [put, if_pos rfl]
    case isFalse h => rw [put, if_neg h, ih]

theorem keys_put_of_notMem (h : k ∉ t.map Prod.fst) :
    (t.put k v).map Prod.fst = t.map Prod.fst ++ [k] := by
  induction t with
  | nil => rfl
  | cons r t ih =>
    rw [List.map_cons, List.mem_cons, not_or] at h
    rw [put, if_neg (Ne.symm h.1), List.map_cons, List.map_cons, ih h.2, List.cons_append]

theorem nodup_keys_put (h : (t.map Prod.fst).Nodup) : ((t.put k v).map Prod.fst).Nodup := by
  by_cases hk : k ∈ t.map Prod.fst
  · rw [keys_put_of_mem hk]
    exact h
  · rw [keys_put_of_notMem hk, List.nodup_append_comm]
    exact List.nodup_cons.mpr ⟨hk, h⟩

/-- With distinct keys, the rows of an updated table are the new one and those under other keys. -/
theorem mem_of_mem_put_of_nodup (h : (t.map Prod.fst).Nodup) {r : κ × ν} (hr : r ∈ t.put k v) :
    r = (k, v) ∨ r ∈ t ∧ r.1 ≠ k := by
  induction t with
  | nil => exact .inl (List.mem_singleton.mp hr)
  | cons s t ih =>
    rw [List.map_cons, List.nodup_cons] at h
    rw [put] at hr
    split at hr
    case isTrue hs =>
      rcases List.mem_cons.mp hr with hr | hr
      · exact .inl hr
      · refine .inr ⟨List.mem_cons_of_mem _ hr, fun hk ↦ h.1 ?_⟩
        rw [hs, ← hk]
        exact List.mem_map_of_mem hr
    case isFalse hs =>
      rcases List.mem_cons.mp hr with hr | hr
      · exact .inr ⟨hr ▸ List.mem_cons_self, hr ▸ hs⟩
      · exact (ih h.2 hr).imp id fun hr ↦ ⟨List.mem_cons_of_mem _ hr.1, hr.2⟩

omit [DecidableEq κ] in
theorem nodup_keys_filter {p : κ × ν → Bool} (h : (t.map Prod.fst).Nodup) :
    ((t.filter p).map Prod.fst).Nodup := h.sublist (List.filter_sublist.map Prod.fst)

theorem get?_insertNew_of_isSome (h : (t.get? k).isSome) : t.insertNew k v = t := if_pos h

theorem insertNew_of_none (h : t.get? k = none) : t.insertNew k v = t ++ [(k, v)] := by
  rw [insertNew, h]
  rfl

theorem get?_insertNew : get? (t.insertNew k v) k' =
    if k' = k then some ((t.get? k).getD v) else get? t k' := by
  rw [insertNew]
  by_cases hk : k' = k
  · subst hk
    rw [if_pos rfl]
    cases h : t.get? k' with
    | none => simp [get?_append, h, get?_cons]
    | some w => simp [h]
  · rw [if_neg hk]
    split
    · rfl
    · rw [get?_append, get?_cons, if_neg (Ne.symm hk), get?_nil, Option.or_none]

theorem mem_of_get? (h : t.get? k = some v) : (k, v) ∈ t := by
  induction t with
  | nil => cases h
  | cons r t ih =>
    rw [get?_cons] at h
    split at h
    case isTrue hk =>
      rw [Option.some.injEq] at h
      exact List.mem_cons.mpr (.inl (Prod.ext hk.symm h.symm))
    case isFalse => exact List.mem_cons_of_mem _ (ih h)

theorem get?_eq_none_iff : t.get? k = none ↔ k ∉ t.map Prod.fst := by
  induction t with
  | nil => simp
  | cons r t ih =>
    rw [get?_cons, List.map_cons, List.mem_cons, not_or]
    split
    case isTrue hk => simp [hk]
    case isFalse hk => rw [ih]; exact ⟨fun h ↦ ⟨Ne.symm hk, h⟩, fun h ↦ h.2⟩

theorem get?_eq_some_iff (h : (t.map Prod.fst).Nodup) : t.get? k = some v ↔ (k, v) ∈ t := by
  refine ⟨mem_of_get?, fun hmem ↦ ?_⟩
  induction t with
  | nil => cases hmem
  | cons r t ih =>
    rw [List.map_cons, List.nodup_cons] at h
    rw [get?_cons]
    rcases List.mem_cons.mp hmem with rfl | hmem
    · rw [if_pos rfl]
    · rw [if_neg, ih h.2 hmem]
      rintro rfl
      exact h.1 (List.mem_map.mpr ⟨_, hmem, rfl⟩)

theorem get?_filter_ne :
    Table.get? (t.filter fun r ↦ r.1 ≠ k) k' = if k' = k then none else t.get? k' := by
  induction t with
  | nil => simp
  | cons r t ih =>
    by_cases hr : r.1 = k
    · rw [List.filter_cons_of_neg (by simpa using hr), ih, get?_cons]
      by_cases hk : k' = k
      · rw [if_pos hk, if_pos hk]
      · rw [if_neg hk, if_neg hk, if_neg fun h ↦ hk (h.symm.trans hr)]
    · rw [List.filter_cons_of_pos (by simpa using hr), get?_cons, get?_cons, ih]
      by_cases hk : k' = k
      · rw [if_pos hk, if_pos hk, if_neg fun h ↦ hr (h.trans hk)]
      · rw [if_neg hk, if_neg hk]

/-! ### The graph of a function -/

/-- The table that has a row for each key, with the value of a function there. -/
def graph (xs : List κ) (f : κ → ν) : Table κ ν := xs.map fun x ↦ (x, f x)

variable {xs : List κ} {f : κ → ν}

omit [DecidableEq κ] in
@[simp] theorem keys_graph : (graph xs f).map Prod.fst = xs := by
  rw [graph, List.map_map]
  exact List.map_id xs

theorem get?_graph : (graph xs f).get? k = if k ∈ xs then some (f k) else none := by
  induction xs with
  | nil => rfl
  | cons x xs ih =>
    have hstep : graph (x :: xs) f = (x, f x) :: graph xs f := rfl
    rw [hstep, get?_cons, ih]
    by_cases hx : x = k
    · simp [hx]
    · simp [hx, Ne.symm hx]

omit [DecidableEq κ] in
theorem mem_graph {r : κ × ν} : r ∈ graph xs f ↔ r.1 ∈ xs ∧ r.2 = f r.1 := by
  rw [graph, List.mem_map]
  constructor
  · rintro ⟨x, hx, rfl⟩
    exact ⟨hx, rfl⟩
  · rintro ⟨hx, hr⟩
    exact ⟨r.1, hx, Prod.ext rfl hr.symm⟩

omit [DecidableEq κ] in
theorem filter_graph {p : κ × ν → Bool} :
    (graph xs f).filter p = graph (xs.filter fun x ↦ p (x, f x)) f := by
  rw [graph, List.filter_map]
  rfl

end Table

/-! ## Numbered tables -/

/-- The values of a list under consecutive keys. -/
def numberedFrom {ν : Type*} : ℕ → List ν → Table ℕ ν
  | _, [] => []
  | i, v :: l => (i, v) :: numberedFrom (i + 1) l

section Numbered

variable {ν : Type*} {i k : ℕ} {l : List ν} {v : ν}

/-- `COALESCE(MAX(key), 0)`. -/
def maxKey (t : Table ℕ ν) : ℕ := t.foldr (fun r m ↦ max r.1 m) 0

@[simp] theorem length_numberedFrom (i : ℕ) (l : List ν) :
    (numberedFrom i l).length = l.length := by
  induction l generalizing i with
  | nil => rfl
  | cons v l ih => rw [numberedFrom, List.length_cons, List.length_cons, ih]

theorem get?_numberedFrom (i : ℕ) (l : List ν) (k : ℕ) :
    (numberedFrom i l).get? k = if i ≤ k then l[k - i]? else none := by
  induction l generalizing i with
  | nil => simp [numberedFrom]
  | cons v l ih =>
    rw [numberedFrom, Table.get?_cons, ih]
    rcases Nat.lt_trichotomy i k with h | rfl | h
    · rw [if_neg (by omega), if_pos (by omega), if_pos (Nat.le_of_lt h),
        show k - i = (k - (i + 1)) + 1 by omega, List.getElem?_cons_succ]
    · rw [if_pos rfl, if_pos (Nat.le_refl i), Nat.sub_self, List.getElem?_cons_zero]
    · rw [if_neg (by omega), if_neg (by omega), if_neg (by omega)]

theorem numberedFrom_append (i : ℕ) (l l' : List ν) :
    numberedFrom i (l ++ l') = numberedFrom i l ++ numberedFrom (i + l.length) l' := by
  induction l generalizing i with
  | nil => simp [numberedFrom]
  | cons v l ih =>
    rw [List.cons_append, numberedFrom, numberedFrom, ih, List.cons_append, List.length_cons,
      Nat.add_assoc, Nat.add_comm 1]

theorem numberedFrom_append_singleton (i : ℕ) (l : List ν) (v : ν) :
    numberedFrom i (l ++ [v]) = numberedFrom i l ++ [(i + l.length, v)] := by
  rw [numberedFrom_append]
  rfl

/-- The largest key of a table numbered from one is the number of its rows. -/
theorem maxKey_numberedFrom_one (l : List ν) : maxKey (numberedFrom 1 l) = l.length := by
  have h : ∀ (i : ℕ) (l : List ν), maxKey (numberedFrom i l) =
      if l.length = 0 then 0 else i + l.length - 1 := by
    intro i l
    induction l generalizing i with
    | nil => rfl
    | cons v l ih =>
      have hstep : maxKey (numberedFrom i (v :: l)) = max i (maxKey (numberedFrom (i + 1) l)) := rfl
      rw [hstep, ih, List.length_cons, if_neg (Nat.succ_ne_zero _)]
      split <;> omega
  rw [h]
  split <;> omega

/-- Deleting from a key on keeps the rows before it. -/
theorem filter_numberedFrom_lt (i : ℕ) (l : List ν) (k : ℕ) :
    (numberedFrom i l).filter (fun r ↦ r.1 < k) = numberedFrom i (l.take (k - i)) := by
  induction l generalizing i with
  | nil => simp [numberedFrom]
  | cons v l ih =>
    rw [numberedFrom, List.filter_cons, ih]
    by_cases h : i < k
    · rw [if_pos (by simpa using h), show k - i = (k - (i + 1)) + 1 by omega, List.take_succ_cons,
        numberedFrom]
    · rw [if_neg (by simpa using h), show k - (i + 1) = 0 by omega, show k - i = 0 by omega,
        List.take_zero, List.take_zero]
      rfl

theorem map_snd_numberedFrom (i : ℕ) (l : List ν) : (numberedFrom i l).map Prod.snd = l := by
  induction l generalizing i with
  | nil => rfl
  | cons v l ih => rw [numberedFrom, List.map_cons, ih]

theorem map_fst_numberedFrom (i : ℕ) (l : List ν) :
    (numberedFrom i l).map Prod.fst = List.range' i l.length := by
  induction l generalizing i with
  | nil => rfl
  | cons v l ih => rw [numberedFrom, List.map_cons, ih, List.length_cons, List.range'_succ]

end Numbered

end EventHorizon
