import Reshape.Proofs.Value.Shape

/-! Members of members. A chain of names leads from a value to a member, to a member of that member, and
so on; where something on the way is no object, or has no such member, it leads nowhere. -/

namespace Reshape.Value

/-- The second value is where a chain of members leads from the first one. -/
inductive Reaches : List String → Value → Value → Prop
  | here (v : Value) : Reaches [] v v
  | member {k : String} {ks : List String} {es : List (Key × Value)} {v w : Value} :
    (.text k, v) ∈ es → Reaches ks v w → Reaches (k :: ks) (.object es) w

/-- The value that a chain of names leads to. -/
def follow? : List String → Value → Option Value
  | [], v => some v
  | k :: ks, v => (v.get? k).bind (follow? ks)

theorem follow?_concat (ks : List String) (k : String) (v : Value) :
    v.follow? (ks ++ [k]) = (v.follow? ks).bind (·.get? k) := by
  induction ks generalizing v with
  | nil => simp [follow?]
  | cons j ks ih => simp [follow?, ih, Option.bind_assoc]

/-- Nothing is a member of what is no object. -/
theorem follow?_null (ks : List String) : (Value.null.follow? ks).getD .null = .null := by
  cases ks <;> rfl

theorem follow?_eq_some_iff {ks : List String} {v w : Value} (hv : v.Keyed) :
    v.follow? ks = some w ↔ Reaches ks v w := by
  induction ks generalizing v with
  | nil =>
    constructor
    · intro h
      obtain rfl := Option.some.inj h
      exact .here v
    · rintro ⟨⟩
      rfl
  | cons k ks ih =>
    rw [follow?, Option.bind_eq_some_iff]
    constructor
    · rintro ⟨u, hu, hw⟩
      cases v with
      | object es =>
        have hm := Entries.mem_of_find? hu
        exact .member hm ((ih (hv.member hm)).mp hw)
      | _ => cases hu
    · intro h
      cases h with
      | member hm hw => exact ⟨_, Entries.find?_of_mem hv.nodup hm, (ih (hv.member hm)).mpr hw⟩

end Reshape.Value
