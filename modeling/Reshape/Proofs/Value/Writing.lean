import Reshape.Proofs.Entries
import Reshape.Proofs.Tree.Branches

/-! Writing the values of children into a container. A written place holds what was written, every
other place what it held before; new names follow the old keys in the order of writing, and an array
keeps its length. -/

namespace Reshape.Value

/-- Writes a child's value into the value of its parent. -/
def put : Branch → Value → Value → Value
  | .name k, w, .object es => .object (Entries.insert k w es)
  | .slot i, w, .array items => .array (items.set i w)
  | _, _, v => v

def write (xs : List (Branch × Value)) (v : Value) : Value :=
  xs.foldl (fun v x => put x.1 x.2 v) v

/-- The part of a value at a place below it. -/
def child? : Branch → Value → Option Value
  | .name k, .object es => Entries.find? k es
  | .slot i, .array items => items[i]?
  | _, _ => none

/-- The part of a value that a path leads to. -/
def at? : List Branch → Value → Option Value
  | [], v => some v
  | b :: bs, v => (v.child? b).bind (at? bs)

@[simp] theorem write_nil (v : Value) : write [] v = v := rfl

@[simp] theorem write_cons (x : Branch × Value) (xs : List (Branch × Value)) (v : Value) :
    write (x :: xs) v = write xs (put x.1 x.2 v) := rfl

@[simp] theorem put_slot_object (i : Nat) (w : Value) (es : List (Key × Value)) :
    put (.slot i) w (.object es) = .object es := rfl

@[simp] theorem put_name_array (k : Key) (w : Value) (items : List Value) :
    put (.name k) w (.array items) = .array items := rfl

/-! ### Objects -/

/-- The names among the written places. -/
def names (xs : List (Branch × Value)) : List Key := (xs.map Prod.fst).filterMap Branch.name?

theorem mem_names {xs : List (Branch × Value)} {k : Key} :
    k ∈ names xs ↔ ∃ w, (.name k, w) ∈ xs := by
  simp only [names, List.mem_filterMap, List.mem_map, Prod.exists]
  constructor
  · rintro ⟨b, ⟨b', w, hm, rfl⟩, hk⟩
    cases b' with
    | name j =>
      obtain rfl : j = k := by simpa [Branch.name?] using hk
      exact ⟨w, hm⟩
    | slot i => simp [Branch.name?] at hk
  · rintro ⟨w, hm⟩
    exact ⟨.name k, ⟨_, w, hm, rfl⟩, rfl⟩

theorem not_mem_names {xs : List (Branch × Value)} {k : Key} (h : .name k ∉ xs.map Prod.fst) :
    k ∉ names xs := by
  intro hk
  obtain ⟨w, hw⟩ := mem_names.mp hk
  exact h (List.mem_map.mpr ⟨_, hw, rfl⟩)

theorem write_object (xs : List (Branch × Value)) (es : List (Key × Value)) :
    ∃ vs, write xs (.object es) = .object vs := by
  induction xs generalizing es with
  | nil => exact ⟨es, rfl⟩
  | cons x rest ih =>
    rcases x with ⟨k | i, w⟩
    · exact ih (Entries.insert k w es)
    · exact ih es

/-- A name that is not written keeps its value. -/
theorem find?_write_of_not_mem {xs : List (Branch × Value)} {es vs : List (Key × Value)}
    (h : write xs (.object es) = .object vs) {k : Key} (hk : k ∉ names xs) :
    Entries.find? k vs = Entries.find? k es := by
  induction xs generalizing es with
  | nil =>
    obtain rfl : es = vs := by simpa using h
    rfl
  | cons x rest ih =>
    rcases x with ⟨j | i, w⟩
    · have hj : j ≠ k ∧ k ∉ names rest := by simpa [names, Branch.name?, eq_comm] using hk
      rw [ih h hj.2, Entries.find?_insert, if_neg hj.1]
    · exact ih h (by simpa [names, Branch.name?] using hk)

theorem find?_write_of_mem {xs : List (Branch × Value)} (hd : (xs.map Prod.fst).Nodup)
    {es vs : List (Key × Value)} (h : write xs (.object es) = .object vs) {k : Key} {w : Value}
    (hk : (.name k, w) ∈ xs) : Entries.find? k vs = some w := by
  induction xs generalizing es with
  | nil => simp at hk
  | cons x rest ih =>
    obtain ⟨hx, hr⟩ := List.nodup_cons.mp hd
    rcases List.mem_cons.mp hk with rfl | hk'
    · rw [write_cons] at h
      rw [find?_write_of_not_mem h (not_mem_names hx), Entries.find?_insert, if_pos rfl]
    · rcases x with ⟨j | i, u⟩
      · exact ih hr h hk'
      · exact ih hr h hk'

/-- The old keys, then the new names in the order of writing. -/
theorem keys_write {xs : List (Branch × Value)} (hd : (xs.map Prod.fst).Nodup)
    {es vs : List (Key × Value)} (h : write xs (.object es) = .object vs) :
    Entries.keys vs = Entries.keys es ++ (names xs).filter (· ∉ Entries.keys es) := by
  induction xs generalizing es with
  | nil =>
    obtain rfl : es = vs := by simpa using h
    simp [names]
  | cons x rest ih =>
    obtain ⟨hx, hr⟩ := List.nodup_cons.mp hd
    rcases x with ⟨k | i, w⟩
    · have hn := not_mem_names hx
      have hc : names ((.name k, w) :: rest) = k :: names rest := rfl
      rw [ih hr h, Entries.keys_insert, hc]
      by_cases hk : k ∈ Entries.keys es
      · simp [hk]
      · have hf : (names rest).filter (· ∉ Entries.keys es ++ [k]) =
            (names rest).filter (· ∉ Entries.keys es) := by
          apply List.filter_congr
          intro j hj
          have : j ≠ k := fun e => hn (e ▸ hj)
          simp [this]
        rw [if_neg hk, hf]
        simp [hk]
    · exact ih hr h

/-- New entries are appended. -/
theorem write_members {acc es : List (Key × Value)} (hn : (Entries.keys (acc ++ es)).Nodup) :
    write (es.map fun x => (.name x.1, x.2)) (.object acc) = .object (acc ++ es) := by
  induction es generalizing acc with
  | nil => simp
  | cons x rest ih =>
    have hnew : x.1 ∉ Entries.keys acc := by
      intro hm
      rw [Entries.keys, List.map_append] at hn
      exact (List.nodup_append.mp hn).2.2 x.1 hm x.1 (by simp) rfl
    rw [List.map_cons, write_cons, put, Entries.insert_of_not_mem hnew, ih]
    · simp
    · simpa using hn

/-! ### Arrays -/

theorem write_array (xs : List (Branch × Value)) (items : List Value) :
    ∃ vs, write xs (.array items) = .array vs ∧ vs.length = items.length := by
  induction xs generalizing items with
  | nil => exact ⟨items, rfl, rfl⟩
  | cons x rest ih =>
    rcases x with ⟨k | i, w⟩
    · exact ih items
    · obtain ⟨vs, h, hl⟩ := ih (items.set i w)
      exact ⟨vs, h, by rw [hl, List.length_set]⟩

/-- A slot that is not written keeps its item. -/
theorem getElem?_write_of_not_mem {xs : List (Branch × Value)} {items vs : List Value}
    (h : write xs (.array items) = .array vs) {i : Nat} (hi : ∀ w, (.slot i, w) ∉ xs) :
    vs[i]? = items[i]? := by
  induction xs generalizing items with
  | nil =>
    obtain rfl : items = vs := by simpa using h
    rfl
  | cons x rest ih =>
    have hr : ∀ w, (.slot i, w) ∉ rest := fun w hw => hi w (List.mem_cons_of_mem _ hw)
    rcases x with ⟨k | j, u⟩
    · exact ih h hr
    · have hj : j ≠ i := by
        rintro rfl
        exact hi u List.mem_cons_self
      rw [ih h hr, List.getElem?_set_ne hj]

theorem getElem?_write_of_mem {xs : List (Branch × Value)} (hd : (xs.map Prod.fst).Nodup)
    {items vs : List Value} (h : write xs (.array items) = .array vs) {i : Nat} {w : Value}
    (hi : i < items.length) (hx : (.slot i, w) ∈ xs) : vs[i]? = some w := by
  induction xs generalizing items with
  | nil => simp at hx
  | cons x rest ih =>
    obtain ⟨hn, hr⟩ := List.nodup_cons.mp hd
    rcases List.mem_cons.mp hx with rfl | hx'
    · rw [write_cons] at h
      rw [getElem?_write_of_not_mem h fun u hu => hn (List.mem_map.mpr ⟨_, hu, rfl⟩),
        List.getElem?_set_self hi]
    · rcases x with ⟨k | j, u⟩
      · exact ih hr h hi hx'
      · exact ih hr h (by rwa [List.length_set]) hx'

/-- Items written into consecutive slots take the places of as many seeds. -/
theorem write_items (front items : List Value) (w : Value) :
    write (slotsFrom front.length items) (.array (front ++ List.replicate items.length w)) =
      .array (front ++ items) := by
  induction items generalizing front with
  | nil => simp [slotsFrom]
  | cons v rest ih =>
    have hset : (front ++ w :: List.replicate rest.length w).set front.length v =
        (front ++ [v]) ++ List.replicate rest.length w := by simp
    have hrest := ih (front ++ [v])
    rw [List.length_append, List.length_singleton] at hrest
    rw [slotsFrom, write_cons, List.length_cons, List.replicate_succ, put, hset, hrest]
    simp

end Reshape.Value
