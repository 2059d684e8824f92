import Mathlib.Tactic
import Reshape.Proofs.Outcome
import Reshape.Yaml.Tag

/-! Scalars that crash their reader. A text that cannot be read as its tag asks is refused, but for those
that a reader takes for granted: that a truth value is one of the words, that a number has a digit, that
the sixtieths of a double can be counted in doubles, and that a point in time has the form of one. A
plain scalar has the form of its tag, so that only the third can happen to it. -/

namespace Reshape.Yaml.Tag

/-! ### Whole numbers -/

theorem readBase_ne_crash (base : Nat) (cs : List Char) (c : Crash) :
    readBase base cs ≠ .error (.crash c) := by
  unfold readBase
  dsimp only
  split <;> split_ifs <;> simp

theorem readTen_ne_crash (ds : List Char) (c : Crash) : readTen ds ≠ .error (.crash c) := by
  unfold readTen
  split <;> simp

theorem readUnsigned_crash {ds : List Char} {c : Crash} :
    readUnsigned ds = .error (.crash c) ↔ ds = [] ∧ c = .missingItem := by
  unfold readUnsigned
  split
  · simp [eq_comm]
  · simp
  · simp [readBase_ne_crash]
  · simp [readBase_ne_crash]
  · simp [readBase_ne_crash]
  · next hnil _ _ _ _ =>
    have hne : ds ≠ [] := hnil
    split_ifs
    · have hparts : (ds.splitOn ':').mapM readTen ≠ .error (.crash c) := fun h => by
        obtain ⟨_, -, hten⟩ := (Except.mapM_eq_error.mp h).exists_mem
        exact readTen_ne_crash _ _ hten
      exact iff_of_false (Except.bind_ne_error hparts (by simp [pure, Except.pure])) (by simp [hne])
    · simp [hne, readTen_ne_crash]

/-- A whole number crashes its reader if it has no digits. -/
theorem readInt_crash {s : String} {c : Crash} :
    readInt s = .error (.crash c) ↔
      (Text.takeSign (withoutUnderscores s)).2 = [] ∧ c = .missingItem := by
  rw [← readUnsigned_crash, readInt]
  dsimp only
  cases readUnsigned (Text.takeSign (withoutUnderscores s)).2 <;> simp [pure, Except.pure]

/-! ### Doubles -/

/-- The most parts between colons whose weights are all doubles. -/
def partLimit : Nat := 174

theorem weight_isSome {k : Nat} (h : k < partLimit) : (Double.ofInt? ((60 ^ k : Nat) : Int)).isSome := by
  revert k
  decide +kernel

theorem weight_partLimit : Double.ofInt? ((60 ^ partLimit : Nat) : Int) = none := by decide +kernel

/-- A sum of parts overflows exactly if there are too many of them. -/
theorem sumOfParts_crash (sum : Double) {k : Nat} (hk : k ≤ partLimit) (parts : List Double)
    {f : Fault} :
    sumOfParts sum (60 ^ k) parts = .error f ↔ partLimit < k + parts.length ∧ f = .crash .overflow := by
  induction parts generalizing sum k with
  | nil =>
    rw [sumOfParts, List.length_nil]
    simp [hk]
  | cons d rest ih =>
    rw [sumOfParts, List.length_cons]
    rcases hk.lt_or_eq with hlt | rfl
    · obtain ⟨w, hw⟩ := Option.isSome_iff_exists.mp (weight_isSome hlt)
      rw [hw, ← pow_succ', ih _ hlt, Nat.succ_add_eq_add_succ]
    · rw [weight_partLimit]
      simp [eq_comm]

theorem readUnsignedDouble_ne_crash (cs : List Char) (c : Crash) :
    readUnsignedDouble cs ≠ .error (.crash c) := by
  unfold readUnsignedDouble
  dsimp only
  split <;> simp

/-- The parts of a double between its colons. -/
def partsOf (s : String) : List (List Char) :=
  (Text.takeSign ((withoutUnderscores s).map Char.toLower)).2.splitOn ':'

theorem sum_crash {body : List Char} {c : Crash} :
    ((body.splitOn ':').mapM readUnsignedDouble >>= fun parts =>
        sumOfParts (.zero false) 1 parts.reverse) = .error (.crash c) ↔
      (∃ ds, (body.splitOn ':').mapM readUnsignedDouble = .ok ds) ∧
        partLimit < (body.splitOn ':').length ∧ c = .overflow := by
  cases hparts : (body.splitOn ':').mapM readUnsignedDouble with
  | error f =>
    have hf : f ≠ .crash c := by
      rintro rfl
      obtain ⟨_, -, hpart⟩ := (Except.mapM_eq_error.mp hparts).exists_mem
      exact readUnsignedDouble_ne_crash _ _ hpart
    simp [hf]
  | ok ds =>
    have hlength : (body.splitOn ':').length = ds.length := (Except.mapM_eq_ok.mp hparts).length_eq
    have hsum := sumOfParts_crash (.zero false) (Nat.zero_le partLimit) ds.reverse (f := .crash c)
    rw [pow_zero, Nat.zero_add, List.length_reverse] at hsum
    simp [hsum, hlength]

/-- A double crashes its reader if it is empty, or has too many parts. -/
theorem readDouble_crash {s : String} {c : Crash} :
    readDouble s = .error (.crash c) ↔ withoutUnderscores s = [] ∧ c = .missingItem ∨
      (∃ ds, (partsOf s).mapM readUnsignedDouble = .ok ds) ∧ partLimit < (partsOf s).length ∧
        c = .overflow := by
  unfold readDouble partsOf
  dsimp only
  by_cases hempty : withoutUnderscores s = []
  · simp [hempty, Text.takeSign, eq_comm, partLimit]
  · have hcs : ((withoutUnderscores s).map Char.toLower).isEmpty = false := by simpa using hempty
    generalize Text.takeSign ((withoutUnderscores s).map Char.toLower) = signed at hcs ⊢
    obtain ⟨negative, body⟩ := signed
    -- the sign that comes last changes nothing
    have hsigned : ∀ x : Except Fault Double,
        (x >>= fun d => pure (Value.double (if negative then d.neg else d))) = .error (.crash c) ↔
          x = .error (.crash c) := fun x => by
      cases x <;> simp [pure, Except.pure]
    rw [hcs, or_iff_right (fun h => hempty h.1), if_neg Bool.false_ne_true]
    dsimp only
    by_cases hcolon : body.contains ':' = true
    · have hinf : ¬(body == ".inf".toList) = true := fun h => by
        rw [eq_of_beq h] at hcolon
        cases hcolon
      have hnan : ¬(body == ".nan".toList) = true := fun h => by
        rw [eq_of_beq h] at hcolon
        cases hcolon
      rw [if_neg hinf, if_neg hnan, if_pos hcolon, ← bind_assoc, hsigned, sum_crash]
    · have hone : body.splitOn ':' = [body] := List.splitOnP_eq_singleton fun x hx => by
        refine beq_false_of_ne ?_
        rintro rfl
        exact hcolon (List.contains_iff_mem.mpr hx)
      rw [hone, if_neg hcolon]
      refine iff_of_false ?_ fun h => absurd h.2.1 (by simp [partLimit])
      split
      · exact fun h => by cases (hsigned (.ok _)).mp h
      · split
        · exact fun h => by cases (hsigned (.ok _)).mp h
        · exact fun h => readUnsignedDouble_ne_crash _ _ ((hsigned _).mp h)

/-! ### All tags -/

theorem readTruth_crash {s : String} {c : Crash} :
    readTruth s = .error (.crash c) ↔ Form.truthWords.lookup s.toLower = none ∧ c = .missingKey := by
  unfold readTruth
  split
  · next h => simp [h]
  · next h => simp [h, eq_comm]

theorem readMoment_crash {s : String} {c : Crash} :
    readMoment s = .error (.crash c) ↔
      (Stamp.ofChars? s.toList).or (Stamp.ofChars? (Form.withoutFeed s.toList)) = none ∧
        c = .missingAttribute := by
  unfold readMoment
  split
  · next h => simp [h, eq_comm]
  · next h => split <;> simp [h]

/-- What a reader of scalars takes for granted, where it does not hold. -/
inductive Chokes (s : String) : Tag → Crash → Prop
  /-- A truth value is one of the words. -/
  | word : Form.truthWords.lookup s.toLower = none → Chokes s .bool .missingKey
  /-- A whole number has something behind its sign that is no underscore. -/
  | digit : (Text.takeSign (withoutUnderscores s)).2 = [] → Chokes s .int .missingItem
  /-- A double has something that is no underscore. -/
  | character : withoutUnderscores s = [] → Chokes s .double .missingItem
  /-- The parts of a double have weights that are doubles. -/
  | weight {ds : List Double} : (partsOf s).mapM readUnsignedDouble = .ok ds →
    partLimit < (partsOf s).length → Chokes s .double .overflow
  /-- A point in time has the form of one. -/
  | form : (Stamp.ofChars? s.toList).or (Stamp.ofChars? (Form.withoutFeed s.toList)) = none →
    Chokes s .moment .missingAttribute

theorem read_crash {s : String} {t : Tag} {c : Crash} :
    t.read s = .error (.crash c) ↔ Chokes s t c := by
  constructor
  · intro h
    cases t with
    | bool =>
      obtain ⟨hword, rfl⟩ := readTruth_crash.mp h
      exact .word hword
    | int =>
      obtain ⟨hdigit, rfl⟩ := readInt_crash.mp h
      exact .digit hdigit
    | double =>
      obtain ⟨hempty, rfl⟩ | ⟨⟨ds, hds⟩, hlength, rfl⟩ := readDouble_crash.mp h
      · exact .character hempty
      · exact .weight hds hlength
    | moment =>
      obtain ⟨hform, rfl⟩ := readMoment_crash.mp h
      exact .form hform
    | bytes =>
      rw [read] at h
      split at h <;> cases h
    | _ => cases h
  · intro h
    cases h with
    | word h => exact readTruth_crash.mpr ⟨h, rfl⟩
    | digit h => exact readInt_crash.mpr ⟨h, rfl⟩
    | character h => exact readDouble_crash.mpr (.inl ⟨h, rfl⟩)
    | weight h hlength => exact readDouble_crash.mpr (.inr ⟨⟨_, h⟩, hlength, rfl⟩)
    | form h => exact readMoment_crash.mpr ⟨h, rfl⟩

/-! ### Plain scalars -/

/-- The words for truth values are known in every spelling. -/
theorem lookup_of_isTruth {s : String} (h : Form.isTruth s) :
    Form.truthWords.lookup s.toLower ≠ none := by
  simp only [Form.isTruth, Form.truthWords, Form.spellings, List.any_cons, List.any_nil, Bool.or_false,
    Bool.or_eq_true, List.contains_iff_mem, List.mem_cons, List.not_mem_nil, or_false] at h
  rcases h with (rfl | rfl | rfl) | (rfl | rfl | rfl) | (rfl | rfl | rfl) | (rfl | rfl | rfl) |
    (rfl | rfl | rfl) | (rfl | rfl | rfl) <;> decide +kernel

theorem takeSign_of_digit {d : Char} {ds : List Char} (h : d.isDigit) :
    Text.takeSign (d :: ds) = (false, d :: ds) := by
  unfold Text.takeSign
  split
  · next heq =>
    cases heq
    cases h
  · next heq =>
    cases heq
    cases h
  · rfl

theorem first_of_isCount {cs : List Char} (h : Form.isCount cs) :
    ∃ d rest, cs = d :: rest ∧ d.isDigit := by
  cases cs with
  | nil => cases h
  | cons d rest => exact ⟨d, rest, rfl, (Bool.and_eq_true_iff.mp h).1⟩

/-- The first part before a separator is in front of the whole. -/
theorem prefix_of_splitOn {x : Char} {cs first : List Char} {others : List (List Char)}
    (h : cs.splitOn x = first :: others) : first <+: cs := by
  have hwhole : [x].intercalate (cs.splitOn x) = cs := List.intercalate_splitOn x
  rw [← hwhole, h]
  cases others with
  | nil => simp
  | cons second others =>
    rw [List.intercalate_cons_cons, List.append_assoc]
    exact List.prefix_append _ _

theorem digit_of_isInt {cs : List Char} (h : Form.isInt cs) :
    ∃ d rest, (Text.takeSign cs).2 = d :: rest ∧ d.isDigit := by
  unfold Form.isInt at h
  split at h
  · next heq => exact ⟨_, _, heq, rfl⟩
  · next heq => exact ⟨_, _, heq, rfl⟩
  · next heq => exact ⟨_, _, heq, rfl⟩
  · next heq => exact ⟨_, _, heq, rfl⟩
  · split at h
    · next first others hsplit =>
      obtain ⟨d, rest, rfl, hd⟩ := first_of_isCount (Bool.and_eq_true_iff.mp h).1
      obtain ⟨more, hmore⟩ := prefix_of_splitOn hsplit
      exact ⟨d, rest ++ more, hmore.symm, hd⟩
    · cases h

/-- A whole number without a tag has a digit, which stays when the underscores go. -/
theorem digit_of_plain_int {s : String} (h : Form.isInt s.toList) :
    (Text.takeSign (withoutUnderscores s)).2 ≠ [] := by
  obtain ⟨d, rest, hs, hd⟩ := digit_of_isInt h
  unfold withoutUnderscores
  generalize s.toList = cs at hs ⊢
  have hkept : (d != '_') = true := bne_iff_ne.mpr (by rintro rfl; cases hd)
  unfold Text.takeSign at hs
  split at hs
  · subst hs
    simp [hkept, Text.takeSign]
  · subst hs
    simp [hkept, Text.takeSign]
  · subst hs
    rw [List.filter_cons_of_pos (p := (· != '_')) hkept, takeSign_of_digit hd]
    simp

theorem mem_of_takeSign {x : Char} {cs : List Char} (h : x ∈ (Text.takeSign cs).2) : x ∈ cs := by
  unfold Text.takeSign at h
  split at h
  · exact List.mem_cons_of_mem _ h
  · exact List.mem_cons_of_mem _ h
  · exact h

theorem point_of_isPointed {cs : List Char} (h : Form.isPointed cs) : '.' ∈ cs := by
  unfold Form.isPointed at h
  dsimp only at h
  split at h
  · next heq =>
    exact mem_of_takeSign (List.mem_of_mem_drop (heq ▸ List.mem_cons_self))
  · cases h

theorem digit_of_isPointedTime {cs : List Char} (h : Form.isPointedTime cs) :
    ∃ d ∈ cs, d.isDigit := by
  unfold Form.isPointedTime at h
  split at h
  · next hsplit =>
    split at h
    · simp only [Bool.and_eq_true] at h
      obtain ⟨d, rest, rfl, hd⟩ := first_of_isCount h.1.1.1.1
      exact ⟨d, mem_of_takeSign ((prefix_of_splitOn hsplit).subset List.mem_cons_self), hd⟩
    · cases h
  · cases h

theorem point_of_contains {words : List String} (hwords : ∀ w ∈ words, '.' ∈ w.toList)
    {cs : List Char} (h : words.contains (String.ofList cs)) : '.' ∈ cs := by
  rw [← String.toList_ofList (l := cs)]
  exact hwords _ (List.contains_iff_mem.mp h)

/-- A double without a tag is not made of underscores. -/
theorem character_of_plain_double {s : String} (h : Form.isDouble s.toList) :
    withoutUnderscores s ≠ [] := by
  have hkept : ∃ x ∈ s.toList, x ≠ '_' := by
    unfold Form.isDouble at h
    simp only [Bool.or_eq_true] at h
    rcases h with ((hpoint | htime) | hinf) | hnan
    · exact ⟨'.', point_of_isPointed hpoint, by decide⟩
    · obtain ⟨d, hmem, hd⟩ := digit_of_isPointedTime htime
      exact ⟨d, hmem, by rintro rfl; cases hd⟩
    · exact ⟨'.', mem_of_takeSign (point_of_contains (by decide +kernel) hinf), by decide⟩
    · exact ⟨'.', point_of_contains (by decide +kernel) hnan, by decide⟩
  obtain ⟨x, hx, hne⟩ := hkept
  exact List.ne_nil_of_mem (List.mem_filter.mpr ⟨hx, bne_iff_ne.mpr hne⟩)

theorem form_of_isPlain {cs : List Char} (h : Stamp.isPlain cs) : Stamp.ofChars? cs ≠ none := by
  unfold Stamp.isPlain at h
  split at h
  · next heq => simp [heq]
  · cases h

/-- A scalar without a tag crashes its reader only if it is a double with too many parts. -/
theorem chokes_ofPlain {s : String} {c : Crash} (h : Chokes s (ofPlain s) c) : c = .overflow := by
  generalize ht : ofPlain s = t at h
  unfold ofPlain at ht
  dsimp only at ht
  split_ifs at ht with hnull htruth hint hdouble hmoment hmerge hdefault <;> subst ht <;> cases h
  · next hword => exact absurd hword (lookup_of_isTruth htruth)
  · next hdigit => exact absurd hdigit (digit_of_plain_int hint)
  · next hempty => exact absurd hempty (character_of_plain_double hdouble)
  · rfl
  · next hform => exact absurd (Option.or_eq_none_iff.mp hform).1 (form_of_isPlain hmoment)

end Reshape.Yaml.Tag
