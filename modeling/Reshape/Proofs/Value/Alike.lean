import Reshape.Proofs.Outcome
import Reshape.Proofs.Value.Shape
import Reshape.Proofs.Value.Writing

/-! Values that are equal but for the order of keys. Listing the properties of a schema in another
order gives such a value, and so does writing the same parts in another order. -/

namespace Reshape.Value

/-- Equal but for the order in which objects list their keys. -/
inductive Alike : Value → Value → Prop
  | same (v : Value) : Alike v v
  | array {xs ys : List Value} : xs.length = ys.length →
    (∀ (i : Nat) v w, xs[i]? = some v → ys[i]? = some w → Alike v w) →
    Alike (.array xs) (.array ys)
  | object {es fs : List (Key × Value)} : (∀ k, Entries.has k es = Entries.has k fs) →
    (∀ k v w, Entries.find? k es = some v → Entries.find? k fs = some w → Alike v w) →
    Alike (.object es) (.object fs)

namespace Alike

theorem array_left {xs : List Value} {w : Value} (h : Alike (.array xs) w) :
    ∃ ys, w = .array ys ∧ xs.length = ys.length ∧
      ∀ (i : Nat) v w, xs[i]? = some v → ys[i]? = some w → Alike v w := by
  cases h with
  | same =>
    refine ⟨xs, rfl, rfl, fun i v w hv hw => ?_⟩
    obtain rfl := Option.some.inj (hv.symm.trans hw)
    exact .same v
  | array hl hi => exact ⟨_, rfl, hl, hi⟩

theorem object_left {es : List (Key × Value)} {w : Value} (h : Alike (.object es) w) :
    ∃ fs, w = .object fs ∧ (∀ k, Entries.has k es = Entries.has k fs) ∧
      ∀ k v w, Entries.find? k es = some v → Entries.find? k fs = some w → Alike v w := by
  cases h with
  | same =>
    refine ⟨es, rfl, fun _ => rfl, fun k v w hv hw => ?_⟩
    obtain rfl := Option.some.inj (hv.symm.trans hw)
    exact .same v
  | object hk hv => exact ⟨_, rfl, hk, hv⟩

/-- Alike objects hold alike values under the same keys. -/
theorem find? {es fs : List (Key × Value)} (h : Alike (.object es) (.object fs)) (k : Key) :
    Option.Rel Alike (Entries.find? k es) (Entries.find? k fs) := by
  obtain ⟨_, he, hk, hv⟩ := h.object_left
  obtain rfl := Value.object.inj he
  have hk := hk k
  have hv := hv k
  rw [Entries.has, Entries.has] at hk
  cases hes : Entries.find? k es with
  | none =>
    cases hfs : Entries.find? k fs with
    | none => exact .none
    | some w => simp [hes, hfs] at hk
  | some v =>
    cases hfs : Entries.find? k fs with
    | none => simp [hes, hfs] at hk
    | some w => exact .some (hv v w hes hfs)

theorem find?_right {es fs : List (Key × Value)} (h : Alike (.object es) (.object fs)) {k : Key}
    {v : Value} (hv : Entries.find? k es = some v) :
    ∃ w, Entries.find? k fs = some w ∧ Alike v w :=
  rel_some_left (hv ▸ h.find? k)

theorem find?_left {es fs : List (Key × Value)} (h : Alike (.object es) (.object fs)) {k : Key}
    {w : Value} (hw : Entries.find? k fs = some w) :
    ∃ v, Entries.find? k es = some v ∧ Alike v w :=
  rel_some_right (hw ▸ h.find? k)

theorem of_find? {es fs : List (Key × Value)}
    (h : ∀ k, Option.Rel Alike (Entries.find? k es) (Entries.find? k fs)) :
    Alike (.object es) (.object fs) := by
  refine .object (fun k => ?_) fun k v w hv hw => ?_
  · have hk := h k
    rw [Entries.has, Entries.has]
    generalize Entries.find? k es = o, Entries.find? k fs = p at hk
    cases hk <;> rfl
  · have hk := h k
    rw [hv, hw] at hk
    cases hk with
    | some hvw => exact hvw

theorem rel_same (o : Option Value) : Option.Rel Alike o o := by
  cases o with
  | none => exact .none
  | some v => exact .some (.same v)

theorem trans {u v w : Value} (h₁ : Alike u v) (h₂ : Alike v w) : Alike u w := by
  induction h₁ generalizing w with
  | same => exact h₂
  | @array xs ys hl _ ih =>
    obtain ⟨zs, rfl, hl', hi'⟩ := h₂.array_left
    refine .array (hl.trans hl') fun i v w hv hw => ?_
    have hi : i < ys.length := hl ▸ (List.getElem?_eq_some_iff.mp hv).1
    have hu : ys[i]? = some ys[i] := List.getElem?_eq_getElem hi
    exact ih i v ys[i] hv hu (hi' i ys[i] w hu hw)
  | @object es fs hk _ ih =>
    obtain ⟨gs, rfl, hk', hv'⟩ := h₂.object_left
    refine .object (fun k => (hk k).trans (hk' k)) fun k v w hv hw => ?_
    have hhas : Entries.has k fs = true := by rw [← hk k, Entries.has, hv]; rfl
    obtain ⟨u, hu⟩ := Option.isSome_iff_exists.mp hhas
    exact ih k v u hv hu (hv' k u w hu hw)

/-! ### Parts -/

theorem of_perm {es fs : List (Key × Value)} (hp : es.Perm fs) (hn : (Entries.keys es).Nodup) :
    Alike (.object es) (.object fs) := by
  refine of_find? fun k => ?_
  rw [Entries.find?_perm hp hn k]
  exact rel_same _

theorem member {v w : Value} (h : Alike v w) (front back : List (Key × Value)) (k : Key) :
    Alike (.object (front ++ (k, v) :: back)) (.object (front ++ (k, w) :: back)) := by
  refine of_find? fun j => ?_
  rw [Entries.find?_append, Entries.find?_append]
  cases Entries.find? j front with
  | some u => exact .some (.same u)
  | none =>
    by_cases hj : k = j
    · simpa [Entries.find?, hj] using Option.Rel.some h
    · simpa [Entries.find?, hj] using rel_same _

theorem item {v w : Value} (h : Alike v w) (front back : List Value) :
    Alike (.array (front ++ v :: back)) (.array (front ++ w :: back)) := by
  refine .array (by simp) fun i x y hx hy => ?_
  by_cases hi : i = front.length
  · subst hi
    obtain rfl : v = x := by simpa using hx
    obtain rfl : w = y := by simpa using hy
    exact h
  · have hsame : (front ++ v :: back)[i]? = (front ++ w :: back)[i]? := by
      rcases Nat.lt_or_gt_of_ne hi with hlt | hgt
      · rw [List.getElem?_append_left hlt, List.getElem?_append_left hlt]
      · rw [List.getElem?_append_right hgt.le, List.getElem?_append_right hgt.le]
        obtain ⟨j, hj⟩ : ∃ j, i - front.length = j + 1 := ⟨i - front.length - 1, by omega⟩
        rw [hj, List.getElem?_cons_succ, List.getElem?_cons_succ]
    obtain rfl := Option.some.inj (hx.symm.trans (hsame.trans hy))
    exact .same x

end Alike

/-! ### Writing in another order -/

/-- Places of different branches, on which matching values are to be written. -/
structure Rewritten (xs ys : List (Branch × Value)) : Prop where
  left : (xs.map Prod.fst).Nodup
  right : (ys.map Prod.fst).Nodup
  matched : Matched (fun x y => x.1 = y.1 ∧ x.2.Alike y.2) xs ys

theorem write_atom {v : Value} (ho : ∀ es, v ≠ .object es) (ha : ∀ items, v ≠ .array items)
    (xs : List (Branch × Value)) : write xs v = v := by
  induction xs with
  | nil => rfl
  | cons x rest ih =>
    have hput : put x.1 x.2 v = v := by
      rcases x with ⟨k | i, w⟩ <;> cases v <;> first | rfl | simp at ho ha
    rw [write_cons, hput, ih]

theorem Rewritten.write {xs ys : List (Branch × Value)} (h : Rewritten xs ys) (v : Value) :
    (write xs v).Alike (write ys v) := by
  cases v with
  | object es =>
    obtain ⟨vs, hvs⟩ := write_object xs es
    obtain ⟨ws, hws⟩ := write_object ys es
    rw [hvs, hws]
    refine .of_find? fun k => ?_
    by_cases hk : k ∈ names xs
    · obtain ⟨x, hx⟩ := mem_names.mp hk
      obtain ⟨⟨_, y⟩, hy, rfl, hxy⟩ := h.matched.left _ hx
      rw [find?_write_of_mem h.left hvs hx, find?_write_of_mem h.right hws hy]
      exact .some hxy
    · have hk' : k ∉ names ys := by
        intro hk'
        obtain ⟨y, hy⟩ := mem_names.mp hk'
        obtain ⟨⟨_, x⟩, hx, rfl, -⟩ := h.matched.right _ hy
        exact hk (mem_names.mpr ⟨x, hx⟩)
      rw [find?_write_of_not_mem hvs hk, find?_write_of_not_mem hws hk']
      exact Alike.rel_same _
  | array items =>
    obtain ⟨vs, hvs, hvl⟩ := write_array xs items
    obtain ⟨ws, hws, hwl⟩ := write_array ys items
    rw [hvs, hws]
    refine .array (hvl.trans hwl.symm) fun i v w hv hw => ?_
    have hi : i < items.length := hvl ▸ (List.getElem?_eq_some_iff.mp hv).1
    by_cases hx : ∃ x, (.slot i, x) ∈ xs
    · obtain ⟨x, hx⟩ := hx
      obtain ⟨⟨_, y⟩, hy, rfl, hxy⟩ := h.matched.left _ hx
      rw [getElem?_write_of_mem h.left hvs hi hx] at hv
      rw [getElem?_write_of_mem h.right hws hi hy] at hw
      obtain rfl := Option.some.inj hv
      obtain rfl := Option.some.inj hw
      exact hxy
    · have hy : ∀ y, (.slot i, y) ∉ ys := by
        intro y hy
        obtain ⟨⟨_, x⟩, hm, rfl, -⟩ := h.matched.right _ hy
        exact hx ⟨x, hm⟩
      rw [getElem?_write_of_not_mem hvs (not_exists.mp hx)] at hv
      rw [getElem?_write_of_not_mem hws hy] at hw
      obtain rfl := Option.some.inj (hv.symm.trans hw)
      exact .same v
  | _ =>
    rw [write_atom (by simp) (by simp), write_atom (by simp) (by simp)]
    exact .same _

/-! ### Properties in another order -/

/-- The entries of objects under the key `properties` are listed in another order, at any depth. -/
inductive Permuted : Value → Value → Prop
  | refl (v : Value) : Permuted v v
  | trans {u v w : Value} : Permuted u v → Permuted v w → Permuted u w
  | properties {front back ps qs : List (Key × Value)} : ps.Perm qs →
    Permuted (.object (front ++ (.text "properties", .object ps) :: back))
      (.object (front ++ (.text "properties", .object qs) :: back))
  | member {front back : List (Key × Value)} {k : Key} {v w : Value} : Permuted v w →
    Permuted (.object (front ++ (k, v) :: back)) (.object (front ++ (k, w) :: back))
  | item {front back : List Value} {v w : Value} : Permuted v w →
    Permuted (.array (front ++ v :: back)) (.array (front ++ w :: back))

theorem Keyed.replace_member {front back : List (Key × Value)} {k : Key} {v w : Value}
    (h : Keyed (.object (front ++ (k, v) :: back))) (hw : v.Keyed → w.Keyed) :
    Keyed (.object (front ++ (k, w) :: back)) := by
  have hmem : ∀ x, x ∈ front ∨ x ∈ back → x ∈ front ++ (k, v) :: back := by simp; tauto
  refine .object (by simpa [Entries.keys] using h.nodup) fun x hx => ?_
  rcases List.mem_append.mp hx with hx | hx
  · exact h.member (hmem x (.inl hx))
  · rcases List.mem_cons.mp hx with rfl | hx
    · exact hw (h.member (k := k) (by simp))
    · exact h.member (hmem x (.inr hx))

theorem Keyed.replace_item {front back : List Value} {v w : Value}
    (h : Keyed (.array (front ++ v :: back))) (hw : v.Keyed → w.Keyed) :
    Keyed (.array (front ++ w :: back)) := by
  refine .array fun x hx => ?_
  rcases List.mem_append.mp hx with hx | hx
  · exact h.item (List.mem_append_left _ hx)
  · rcases List.mem_cons.mp hx with rfl | hx
    · exact hw (h.item (by simp))
    · exact h.item (List.mem_append_right _ (List.mem_cons_of_mem _ hx))

theorem Keyed.perm {es fs : List (Key × Value)} (h : Keyed (.object es)) (hp : es.Perm fs) :
    Keyed (.object fs) :=
  .object ((hp.map Prod.fst).nodup_iff.mp h.nodup) fun _ hx => h.member (hp.mem_iff.mpr hx)

/-- A value without repeated keys stays one, and stays what it is but for the order of keys. -/
theorem Permuted.alike {v w : Value} (h : Permuted v w) (hv : v.Keyed) : v.Alike w ∧ w.Keyed := by
  induction h with
  | refl v => exact ⟨.same v, hv⟩
  | trans _ _ ih₁ ih₂ =>
    obtain ⟨h₁, hk⟩ := ih₁ hv
    obtain ⟨h₂, hk⟩ := ih₂ hk
    exact ⟨h₁.trans h₂, hk⟩
  | @properties front back ps qs hp =>
    have hps : Keyed (.object ps) := hv.member (k := .text "properties") (by simp)
    exact ⟨(Alike.of_perm hp hps.nodup).member front back _, hv.replace_member fun h => h.perm hp⟩
  | @member front back k v w _ ih =>
    exact ⟨(ih (hv.member (k := k) (by simp))).1.member front back k,
      hv.replace_member fun h => (ih h).2⟩
  | @item front back v w _ ih =>
    exact ⟨(ih (hv.item (by simp))).1.item front back, hv.replace_item fun h => (ih h).2⟩

end Reshape.Value
