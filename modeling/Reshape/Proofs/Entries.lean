import Mathlib.Tactic
import Reshape.Value

/-! Laws of entries: what an insertion does to the keys and to the value of each key. -/

namespace Reshape.Entries

variable {β : Type}

@[simp] theorem keys_nil : keys ([] : List (Key × β)) = [] := rfl

@[simp] theorem keys_cons (x : Key × β) (es : List (Key × β)) : keys (x :: es) = x.1 :: keys es := rfl

theorem find?_insert (k j : Key) (v : β) (es : List (Key × β)) :
    find? k (insert j v es) = if j = k then some v else find? k es := by
  induction es with
  | nil => simp [insert, find?]
  | cons x rest ih =>
    rcases x with ⟨i, w⟩
    by_cases hij : i = j
    · subst hij
      by_cases hik : i = k <;> simp [insert, find?, hik]
    · simp only [insert, hij, if_false, find?, ih]
      by_cases hik : i = k
      · subst hik; simp [Ne.symm hij]
      · simp [hik]

/-- A new key goes to the end. -/
theorem keys_insert (k : Key) (v : β) (es : List (Key × β)) :
    keys (insert k v es) = if k ∈ keys es then keys es else keys es ++ [k] := by
  induction es with
  | nil => simp [insert]
  | cons x rest ih =>
    rcases x with ⟨i, w⟩
    by_cases hik : i = k
    · subst hik; simp [insert]
    · simp only [insert, hik, if_false, keys_cons, ih, List.mem_cons, Ne.symm hik, false_or]
      split_ifs <;> simp

theorem mem_insert {k : Key} {v : β} {es : List (Key × β)} {x : Key × β} (h : x ∈ insert k v es) :
    x = (k, v) ∨ x ∈ es := by
  induction es with
  | nil => exact .inl (List.mem_singleton.mp h)
  | cons y rest ih =>
    rcases y with ⟨i, w⟩
    by_cases hik : i = k
    · subst hik
      rw [insert, if_pos rfl] at h
      rcases List.mem_cons.mp h with rfl | h
      · exact .inl rfl
      · exact .inr (List.mem_cons_of_mem _ h)
    · rw [insert, if_neg hik] at h
      rcases List.mem_cons.mp h with rfl | h
      · exact .inr List.mem_cons_self
      · exact (ih h).imp_right (List.mem_cons_of_mem _)

/-- Related values, written into entries with the same keys and related values. -/
theorem forall₂_insert {γ : Type} {R : β → γ → Prop} {es : List (Key × β)} {fs : List (Key × γ)}
    {v : β} {w : γ} (hk : keys es = keys fs)
    (hv : List.Forall₂ R (es.map Prod.snd) (fs.map Prod.snd)) (k : Key) (hvw : R v w) :
    List.Forall₂ R ((insert k v es).map Prod.snd) ((insert k w fs).map Prod.snd) := by
  induction es generalizing fs with
  | nil =>
    obtain rfl : fs = [] := List.map_eq_nil_iff.mp hk.symm
    exact .cons hvw .nil
  | cons x es ih =>
    cases fs with
    | nil => simp at hk
    | cons y fs =>
      obtain ⟨j, v'⟩ := x
      obtain ⟨j', w'⟩ := y
      simp only [keys_cons, List.cons.injEq] at hk
      obtain ⟨rfl, hk⟩ := hk
      obtain ⟨hvw', hv⟩ := List.forall₂_cons.mp hv
      rw [insert, insert]
      split_ifs
      · exact .cons hvw hv
      · exact .cons hvw' (ih hk hv)

theorem find?_of_mem {k : Key} {v : β} {es : List (Key × β)} (hn : (keys es).Nodup)
    (h : (k, v) ∈ es) : find? k es = some v := by
  induction es with
  | nil => simp at h
  | cons x rest ih =>
    obtain ⟨hx, hr⟩ := List.nodup_cons.mp hn
    rcases List.mem_cons.mp h with rfl | h
    · simp [find?]
    · have hne : x.1 ≠ k := by
        rintro rfl
        exact hx (List.mem_map.mpr ⟨_, h, rfl⟩)
      rw [find?, if_neg hne, ih hr h]

theorem mem_of_find? {k : Key} {v : β} {es : List (Key × β)} (h : find? k es = some v) :
    (k, v) ∈ es := by
  induction es with
  | nil => cases h
  | cons x rest ih =>
    rcases x with ⟨j, w⟩
    by_cases hj : j = k
    · obtain rfl : w = v := by simpa [find?, hj] using h
      exact hj ▸ List.mem_cons_self
    · exact List.mem_cons_of_mem _ (ih (by simpa [find?, hj] using h))

theorem find?_append (k : Key) (es fs : List (Key × β)) :
    find? k (es ++ fs) = (find? k es).or (find? k fs) := by
  induction es with
  | nil => rfl
  | cons x rest ih =>
    rcases x with ⟨j, w⟩
    by_cases hj : j = k <;> simp [find?, hj, ih]

/-- Values that are changed by their keys keep their keys. -/
theorem find?_map {γ : Type} (g : Key → β → γ) (k : Key) (es : List (Key × β)) :
    find? k (es.map fun x => (x.1, g x.1 x.2)) = (find? k es).map (g k) := by
  induction es with
  | nil => rfl
  | cons x rest ih =>
    rcases x with ⟨j, w⟩
    by_cases hj : j = k
    · simp [find?, hj]
    · simp [find?, hj, ih]

/-- What is made of the found value does not change with a value of which the same is made. -/
theorem map_find?_replace {γ : Type} {f : β → γ} {v w : β} (h : f w = f v) (j k : Key)
    (front back : List (Key × β)) :
    (find? j (front ++ (k, w) :: back)).map f = (find? j (front ++ (k, v) :: back)).map f := by
  rw [find?_append, find?_append]
  cases find? j front with
  | some u => rfl
  | none => by_cases hk : k = j <;> simp [find?, hk, h]

theorem exists_front_of_find? {k : Key} {v : β} {es : List (Key × β)} (h : find? k es = some v) :
    ∃ front back, es = front ++ (k, v) :: back ∧ find? k front = none := by
  induction es with
  | nil => cases h
  | cons x rest ih =>
    rcases x with ⟨j, w⟩
    by_cases hj : j = k
    · obtain rfl : w = v := by simpa [find?, hj] using h
      exact ⟨[], rest, by rw [hj]; rfl, rfl⟩
    · obtain ⟨front, back, rfl, hfront⟩ := ih (by simpa [find?, hj] using h)
      exact ⟨(j, w) :: front, back, rfl, by simpa [find?, hj] using hfront⟩

theorem find?_replace_of_ne {j k : Key} (h : k ≠ j) (v w : β) (front back : List (Key × β)) :
    find? j (front ++ (k, w) :: back) = find? j (front ++ (k, v) :: back) := by
  simp only [find?_append, find?, h, if_false]

theorem find?_of_front {k : Key} {front : List (Key × β)} (h : find? k front = none) (v : β)
    (back : List (Key × β)) : find? k (front ++ (k, v) :: back) = some v := by
  simp only [find?_append, h, find?, if_true, Option.none_or]

/-- The order of entries with different keys makes no difference. -/
theorem find?_perm {es fs : List (Key × β)} (hp : es.Perm fs) (hn : (keys es).Nodup) (k : Key) :
    find? k es = find? k fs := by
  have hn' : (keys fs).Nodup := (hp.map Prod.fst).nodup_iff.mp hn
  ext v
  constructor
  · exact fun h => find?_of_mem hn' (hp.mem_iff.mp (mem_of_find? h))
  · exact fun h => find?_of_mem hn (hp.mem_iff.mpr (mem_of_find? h))

theorem insert_of_not_mem {k : Key} {v : β} {es : List (Key × β)} (h : k ∉ keys es) :
    insert k v es = es ++ [(k, v)] := by
  induction es with
  | nil => rfl
  | cons x rest ih =>
    rw [keys_cons, List.mem_cons, not_or] at h
    simp [insert, ih h.2, Ne.symm h.1]

end Reshape.Entries
