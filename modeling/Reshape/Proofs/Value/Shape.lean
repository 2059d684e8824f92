import Reshape.Proofs.Entries
import Reshape.Sequence

/-! Shapes of values: without repeated keys, as JSON can spell them, and with arrays that can be
held in memory. -/

namespace Reshape.Value

/-! ### Parts -/

theorem sizeOf_member {es : List (Key × Value)} {k : Key} {v : Value} (h : (k, v) ∈ es) :
    sizeOf v < sizeOf (Value.object es) := by
  have := List.sizeOf_lt_of_mem h
  simp only [Prod.mk.sizeOf_spec, Value.object.sizeOf_spec] at *
  omega

theorem sizeOf_item {items : List Value} {v : Value} (h : v ∈ items) :
    sizeOf v < sizeOf (Value.array items) := by
  have := List.sizeOf_lt_of_mem h
  simp only [Value.array.sizeOf_spec]
  omega

/-! ### Keys -/

/-- No object in a value has a key twice. -/
inductive Keyed : Value → Prop
  | object {es : List (Key × Value)} : (Entries.keys es).Nodup → (∀ x ∈ es, Keyed x.2) →
    Keyed (.object es)
  | array {items : List Value} : (∀ v ∈ items, Keyed v) → Keyed (.array items)
  | atom {v : Value} : (∀ es, v ≠ .object es) → (∀ items, v ≠ .array items) → Keyed v

namespace Keyed

theorem nodup {es : List (Key × Value)} (h : Keyed (.object es)) : (Entries.keys es).Nodup := by
  cases h with
  | object hn _ => exact hn
  | atom hne _ => exact absurd rfl (hne es)

theorem member {es : List (Key × Value)} (h : Keyed (.object es)) {k : Key} {v : Value}
    (hm : (k, v) ∈ es) : v.Keyed := by
  cases h with
  | object _ hv => exact hv (k, v) hm
  | atom hne _ => exact absurd rfl (hne es)

theorem item {items : List Value} (h : Keyed (.array items)) {v : Value} (hm : v ∈ items) :
    v.Keyed := by
  cases h with
  | array hv => exact hv v hm
  | atom _ hne => exact absurd rfl (hne items)

end Keyed

/-! ### JSON -/

/-- A value as JSON can spell it: all keys are texts, and none comes twice. -/
inductive Plain : Value → Prop
  | null : Plain .null
  | bool (b : Bool) : Plain (.bool b)
  | number (n : Number) : Plain (.number n)
  | text (s : String) : Plain (.text s)
  | array {items : List Value} : (∀ v ∈ items, Plain v) → Plain (.array items)
  | object {es : List (Key × Value)} : (Entries.keys es).Nodup →
    (∀ k ∈ Entries.keys es, ∃ s, k = .text s) → (∀ x ∈ es, Plain x.2) → Plain (.object es)

theorem Plain.keyed {v : Value} (h : v.Plain) : v.Keyed := by
  induction h with
  | array _ ih => exact .array ih
  | object hn _ _ ih => exact .object hn ih
  | _ => exact .atom (fun _ => by simp) fun _ => by simp

/-- A written entry keeps an object plain. -/
theorem Plain.insert {es : List (Key × Value)} (h : Plain (.object es)) (k : String) {v : Value}
    (hv : v.Plain) : Plain (.object (Entries.insert (.text k) v es)) := by
  cases h with
  | object hn hk hes =>
    refine .object ?_ ?_ ?_
    · rw [Entries.keys_insert]
      split
      · exact hn
      · next hnew => exact List.nodup_append_comm.mp (List.nodup_cons.mpr ⟨hnew, hn⟩)
    · intro j hj
      rw [Entries.keys_insert] at hj
      split at hj
      · exact hk j hj
      · rcases List.mem_append.mp hj with hj | hj
        · exact hk j hj
        · exact ⟨k, List.mem_singleton.mp hj⟩
    · intro x hx
      rcases Entries.mem_insert hx with rfl | hx
      · exact hv
      · exact hes x hx

/-! ### Memory -/

/-- No array in a value has more items than memory can hold; one that has cannot be built. -/
inductive Held : Value → Prop
  | array {items : List Value} : items.length ≤ Sequence.memoryLimit → (∀ v ∈ items, Held v) →
    Held (.array items)
  | object {es : List (Key × Value)} : (∀ x ∈ es, Held x.2) → Held (.object es)
  | atom {v : Value} : (∀ es, v ≠ .object es) → (∀ items, v ≠ .array items) → Held v

theorem Held.member {es : List (Key × Value)} (h : Held (.object es)) {x : Key × Value}
    (hx : x ∈ es) : x.2.Held := by
  cases h with
  | object hv => exact hv x hx
  | atom hne _ => exact absurd rfl (hne es)

theorem Held.items {items : List Value} (h : Held (.array items)) :
    items.length ≤ Sequence.memoryLimit ∧ ∀ v ∈ items, v.Held := by
  cases h with
  | array hl hv => exact ⟨hl, hv⟩
  | atom _ hne => exact absurd rfl (hne items)

end Reshape.Value
