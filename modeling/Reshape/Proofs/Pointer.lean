import Reshape.Pointer
import Reshape.Proofs.Text.Digits

/-! Pointers written and read back. A token behind a slash, with its escapes, is read as that token,
whatever characters it holds; the digits of an index are read as that index. -/

namespace Reshape.Pointer

/-! ### Escapes -/

theorem unescape_escape (cs : List Char) : unescape (escape cs) = some cs := by
  induction cs with
  | nil => rfl
  | cons c rest ih =>
    by_cases h₀ : c = '~'
    · subst h₀
      simp [escape, unescape, ih]
    · by_cases h₁ : c = '/'
      · subst h₁
        simp [escape, unescape, ih]
      · simp [escape, unescape, ih, h₀]

theorem slash_not_mem_escape (cs : List Char) : '/' ∉ escape cs := by
  induction cs with
  | nil => simp [escape]
  | cons c rest ih =>
    by_cases h₀ : c = '~'
    · subst h₀
      simp [escape, ih]
    · by_cases h₁ : c = '/'
      · subst h₁
        simp [escape, ih]
      · simp [escape, ih, Ne.symm h₁]

theorem unescape_of_not_mem {cs : List Char} (h : '~' ∉ cs) : unescape cs = some cs := by
  induction cs with
  | nil => rfl
  | cons c rest ih =>
    rw [List.mem_cons, not_or] at h
    simp [unescape, ih h.2, Ne.symm h.1]

/-! ### Pieces -/

theorem pieces_ne_nil (cs : List Char) : pieces cs ≠ [] := by
  cases cs with
  | nil => simp [pieces]
  | cons c rest =>
    by_cases hc : c = '/'
    · simp [pieces, hc]
    · cases hp : pieces rest <;> simp [pieces, hp]

theorem pieces_of_not_mem {cs : List Char} (h : '/' ∉ cs) : pieces cs = [cs] := by
  induction cs with
  | nil => rfl
  | cons c rest ih =>
    rw [List.mem_cons, not_or] at h
    simp [pieces, ih h.2, Ne.symm h.1]

theorem pieces_append_slash (cs ds : List Char) :
    pieces (cs ++ '/' :: ds) = pieces cs ++ pieces ds := by
  induction cs with
  | nil => simp [pieces]
  | cons c rest ih =>
    by_cases hc : c = '/'
    · subst hc
      simp [pieces, ih]
    · obtain ⟨p, ps, hp⟩ := List.exists_cons_of_ne_nil (pieces_ne_nil rest)
      simp [pieces, ih, hp]

/-! ### Reading -/

theorem parse_eq_ok {s : String} {ts : List String} :
    parse s = .ok ⟨ts⟩ ↔ (pieces s.toList).mapM unescape = some ([] :: ts.map String.toList) := by
  have hmap : ∀ xs : List (List Char), xs.map String.ofList = ts ↔ xs = ts.map String.toList := by
    intro xs
    constructor
    · rintro rfl
      simp [Function.comp_def]
    · rintro rfl
      simp [Function.comp_def]
  unfold parse
  rcases hm : (pieces s.toList).mapM unescape with _ | _ | ⟨first, rest⟩
  · simp
  · obtain ⟨p, ps, hp⟩ := List.exists_cons_of_ne_nil (pieces_ne_nil s.toList)
    simp [hp, Option.bind_eq_some_iff] at hm
  · cases first with
    | nil => simp [hmap]
    | cons c cs => simp

/-- A token behind a slash is one more step of the pointer before it. -/
theorem parse_snoc {s w t : String} {ts : List String} (h : parse s = .ok ⟨ts⟩) (hw : '/' ∉ w.toList)
    (ht : unescape w.toList = some t.toList) : parse (s ++ "/" ++ w) = .ok ⟨ts ++ [t]⟩ := by
  rw [parse_eq_ok] at h ⊢
  have hs : (s ++ "/" ++ w).toList = s.toList ++ '/' :: w.toList := by simp
  rw [hs, pieces_append_slash, pieces_of_not_mem hw, List.mapM_append, h]
  simp [ht]

/-- A key is read back as it was, whatever characters it holds. -/
theorem parse_member {s : String} {ts : List String} (h : parse s = .ok ⟨ts⟩) (k : String) :
    parse (s ++ "/" ++ String.ofList (escape k.toList)) = .ok ⟨ts ++ [k]⟩ := by
  apply parse_snoc h
  · rw [String.toList_ofList]
    exact slash_not_mem_escape k.toList
  · rw [String.toList_ofList]
    exact unescape_escape k.toList

theorem parse_index {s : String} {ts : List String} (h : parse s = .ok ⟨ts⟩) (i : Nat) :
    parse (s ++ "/" ++ toString i) = .ok ⟨ts ++ [toString i]⟩ := by
  have hdigits : ∀ c ∈ (toString i).toList, c.isDigit = true := fun c hc =>
    Text.isDigit_of_mem_toDigits (n := i) (by simpa using hc)
  apply parse_snoc h
  · intro hm
    simpa using hdigits _ hm
  · apply unescape_of_not_mem
    intro hm
    simpa using hdigits _ hm

/-! ### Steps -/

theorem index?_toString (i : Nat) : index? (toString i) = some i := by
  have hlist : (toString i).toList = Nat.toDigits 10 i := by simp
  have hall : ∀ c ∈ Nat.toDigits 10 i, c.isDigit = true := fun c hc => Text.isDigit_of_mem_toDigits hc
  unfold index?
  rw [hlist]
  by_cases hi : i = 0
  · subst hi
    rfl
  · have hhead := Text.head?_toDigits (Nat.pos_of_ne_zero hi)
    have hval : (Nat.toDigits 10 i).foldl (fun n d => 10 * n + (d.toNat - 48)) 0 = i :=
      Text.natOfDigits_toDigits i
    obtain ⟨c, cs, hc⟩ := List.exists_cons_of_ne_nil (Nat.toDigits_ne_nil (n := i) (b := 10))
    rw [hc] at hall hhead hval ⊢
    have hzero : c ≠ '0' := by simpa using hhead
    have hdigits : (c :: cs).all Char.isDigit = true := List.all_eq_true.mpr hall
    split
    · next h => exact absurd (List.cons.inj h).1 hzero
    · next c' cs' _ h =>
      obtain ⟨rfl, rfl⟩ := List.cons.inj h
      simp only [ne_eq, hzero, not_false_eq_true, decide_true, hdigits, Bool.and_self, if_true, hval]
    · next h => simp at h

theorem walk_snoc (ts : List String) (t : String) (v : Value) :
    walk (ts ++ [t]) v = (walk ts v).bind (step t) := by
  induction ts generalizing v with
  | nil => cases h : step t v <;> simp [walk, h]
  | cons t' rest ih =>
    simp only [List.cons_append, walk]
    cases step t' v with
    | none => rfl
    | some w => exact ih w

end Reshape.Pointer
