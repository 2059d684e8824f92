import Reshape.File
import Reshape.Proofs.Text.Utf8
import Reshape.Proofs.Yaml.Causes

/-! What leaves the loaders of files. Each of them reports some of what can be wrong with a file as a
fault that names it, and lets the rest through: `load_contained` says which crash leaves which loader,
and when. -/

namespace Reshape

namespace File

/-- The characters of a file whose bytes are those of a text. -/
abbrev charsOf (t : String) : List Char := unifyLineEnds t.toList

theorem utf8_or_not (bytes : Text.Bytes) :
    (∃ t, bytes = Text.utf8 t) ∨ ∀ t, bytes ≠ Text.utf8 t := by
  rw [← not_exists]
  exact em _

theorem text_utf8 (t : String) : text (Text.utf8 t) = .ok (charsOf t) := by
  have hdecode : Text.decodeStrict (Text.utf8 t) = .ok t.toList :=
    Text.decodeStrict_eq_ok.mpr (by rw [String.ofList_toList])
  rw [text, hdecode]

theorem text_of_not_utf8 {bytes : Text.Bytes} (h : ∀ t, bytes ≠ Text.utf8 t) :
    text bytes = .error (.crash .undecodable) := by
  unfold text
  split
  · next cs hdecode => exact absurd (Text.decodeStrict_eq_ok.mp hdecode) (h _)
  · rfl

end File

/-! ### Schemas -/

namespace Schema

/-- The crashes that leave the loader of schemas. -/
inductive Leaks (name : String) (bytes : Text.Bytes) : Crash → Prop
  /-- The bytes are those of no text. -/
  | undecodable : (∀ t, bytes ≠ Text.utf8 t) → Leaks name bytes .undecodable
  | yaml {t : String} {c : Crash} : bytes = Text.utf8 t → File.isYaml name = true →
    Yaml.parse (File.charsOf t) = .error (.crash c) → Leaks name bytes c
  | json {t : String} : bytes = Text.utf8 t → File.isYaml name = false →
    Json.parseText .nearest (String.ofList (File.charsOf t)) = .error .tooDeep →
    Leaks name bytes .tooDeep

theorem Leaks.mem {name : String} {bytes : Text.Bytes} {c : Crash} (h : Leaks name bytes c) :
    c ∈ .undecodable :: Yaml.crashes := by
  cases h with
  | undecodable | json => decide
  | yaml _ _ hparse => exact List.mem_cons_of_mem _ (Yaml.parse_crash_mem hparse)

/-- The value of a schema's text, in the format that the name of its file tells. -/
def parse (name : String) (cs : List Char) : Except (Crash ⊕ LoadReason) Value :=
  if File.isYaml name then parseYaml cs else parseJson cs

theorem parseYaml_crash {cs : List Char} {c : Crash} :
    parseYaml cs = .error (.inl c) ↔ Yaml.parse cs = .error (.crash c) := by
  unfold parseYaml
  rcases Yaml.parse cs with (_ | _ | _) | v <;> simp [Except.mapError]

theorem parseJson_crash {cs : List Char} {c : Crash} :
    parseJson cs = .error (.inl c) ↔
      Json.parseText .nearest (String.ofList cs) = .error .tooDeep ∧ c = .tooDeep := by
  unfold parseJson
  rcases Json.parseText .nearest (String.ofList cs) with f | v
  · cases f <;> simp [Except.mapError, eq_comm]
  · simp [Except.mapError]

variable {name : String} {bytes : Text.Bytes}

theorem load_utf8 (name : String) (t : String) :
    load ⟨name, some (Text.utf8 t)⟩ = match parse name (File.charsOf t) with
      | .ok (.object es) => .ok es
      | .ok _ => .error (.fault (.schemaFile name .notMapping))
      | .error (.inl c) => .error (.crash c)
      | .error (.inr r) => .error (.fault (.schemaFile name r)) := by
  unfold load parse
  dsimp only
  rw [File.text_utf8]
  rfl

theorem load_of_not_utf8 (h : ∀ t, bytes ≠ Text.utf8 t) :
    load ⟨name, some bytes⟩ = .error (.crash .undecodable) := by
  unfold load
  dsimp only
  rw [File.text_of_not_utf8 h]
  rfl

theorem load_crash {c : Crash} :
    load ⟨name, some bytes⟩ = .error (.crash c) ↔ Leaks name bytes c := by
  constructor
  · intro h
    rcases File.utf8_or_not bytes with ⟨t, rfl⟩ | htext
    · rw [load_utf8] at h
      split at h <;> cases h
      next hparse =>
      unfold parse at hparse
      split_ifs at hparse with hyaml
      · exact .yaml rfl hyaml (parseYaml_crash.mp hparse)
      · obtain ⟨hjson, rfl⟩ := parseJson_crash.mp hparse
        exact .json rfl (eq_false_of_ne_true hyaml) hjson
    · rw [load_of_not_utf8 htext] at h
      cases h
      exact .undecodable htext
  · intro h
    cases h with
    | undecodable h => exact load_of_not_utf8 h
    | yaml hbytes hyaml hparse =>
      rw [hbytes, load_utf8, parse, if_pos hyaml, parseYaml_crash.mpr hparse]
    | json hbytes hyaml hparse =>
      rw [hbytes, load_utf8, parse, if_neg (Bool.not_eq_true _ ▸ hyaml),
        parseJson_crash.mpr ⟨hparse, rfl⟩]

theorem load_fault {f : Fault} (h : load ⟨name, some bytes⟩ = .error (.fault f)) :
    ∃ r, f = .schemaFile name r := by
  rcases File.utf8_or_not bytes with ⟨t, rfl⟩ | htext
  · rw [load_utf8] at h
    split at h <;> cases h
    · exact ⟨_, rfl⟩
    · exact ⟨_, rfl⟩
  · rw [load_of_not_utf8 htext] at h
    cases h

end Schema

/-! ### Settings -/

namespace Settings

/-- The crashes that leave the loader of settings. -/
inductive Leaks (bytes : Text.Bytes) : Crash → Prop
  /-- The bytes are those of no text. -/
  | undecodable : (∀ t, bytes ≠ Text.utf8 t) → Leaks bytes .undecodable
  | yaml {t : String} {c : Crash} : bytes = Text.utf8 t →
    Yaml.parse (File.charsOf t) = .error (.crash c) → Leaks bytes c
  /-- A part of the text stands for no value. -/
  | unreadable {t : String} {f : Yaml.ScalarFault} : bytes = Text.utf8 t →
    Yaml.parse (File.charsOf t) = .error (.unreadable f) → Leaks bytes .badValue
  /-- A key is no text. -/
  | key {t : String} {es : List (Key × Value)} {e : Key × Value} : bytes = Text.utf8 t →
    Yaml.parse (File.charsOf t) = .ok (.object es) → e ∈ es → (∀ s, e.1 ≠ .text s) →
    Leaks bytes .wrongKind

theorem Leaks.mem {bytes : Text.Bytes} {c : Crash} (h : Leaks bytes c) :
    c ∈ .undecodable :: .badValue :: Yaml.crashes := by
  cases h with
  | undecodable | unreadable | key => decide
  | yaml _ hparse =>
    exact List.mem_cons_of_mem _ (List.mem_cons_of_mem _ (Yaml.parse_crash_mem hparse))

theorem fields_eq_none {es : List (Key × Value)} :
    fields es = none ↔ ∃ e ∈ es, ∀ s, e.1 ≠ .text s := by
  induction es with
  | nil => simp [fields]
  | cons e es ih =>
    obtain ⟨k, v⟩ := e
    rw [List.exists_mem_cons_iff, ← ih]
    cases k with
    | text s => simp [fields]
    | _ => simp [fields]

theorem parse_crash {cs : List Char} {c : Crash} :
    parse cs = .error (.inl c) ↔ Yaml.parse cs = .error (.crash c) ∨
      (∃ f, Yaml.parse cs = .error (.unreadable f)) ∧ c = .badValue ∨
      (∃ es, Yaml.parse cs = .ok (.object es) ∧ ∃ e ∈ es, ∀ s, e.1 ≠ .text s) ∧ c = .wrongKind := by
  simp only [← fields_eq_none]
  unfold parse
  split
  · next h => simp [h]
  · next h => simp [h, eq_comm]
  · next h => simp [h]
  · next h => simp [h]
  · next es h =>
    cases hfields : fields es with
    | none => simp [h, hfields, eq_comm]
    | some fs =>
      rcases hsettings : ofFields fs with faults | settings <;>
        simp [h, hfields, hsettings, Except.mapError]
  · next v hnull hobject h =>
    have hv : ∀ es, v ≠ .object es := fun es hes => hobject es hes
    simp [h, hv]

variable {name : String} {bytes : Text.Bytes}

theorem load_utf8 (name : String) (t : String) :
    load ⟨name, some (Text.utf8 t)⟩ = match parse (File.charsOf t) with
      | .ok s => .ok s
      | .error (.inl c) => .error (.crash c)
      | .error (.inr r) => .error (.fault (.settingsFile name r)) := by
  unfold load
  dsimp only
  rw [File.text_utf8]
  rfl

theorem load_of_not_utf8 (h : ∀ t, bytes ≠ Text.utf8 t) :
    load ⟨name, some bytes⟩ = .error (.crash .undecodable) := by
  unfold load
  dsimp only
  rw [File.text_of_not_utf8 h]
  rfl

theorem load_crash {c : Crash} :
    load ⟨name, some bytes⟩ = .error (.crash c) ↔ Leaks bytes c := by
  constructor
  · intro h
    rcases File.utf8_or_not bytes with ⟨t, rfl⟩ | htext
    · rw [load_utf8] at h
      split at h <;> cases h
      next hparse =>
      rcases parse_crash.mp hparse with hyaml | ⟨⟨f, hyaml⟩, rfl⟩ | ⟨⟨es, hyaml, e, he, hkey⟩, rfl⟩
      · exact .yaml rfl hyaml
      · exact .unreadable rfl hyaml
      · exact .key rfl hyaml he hkey
    · rw [load_of_not_utf8 htext] at h
      cases h
      exact .undecodable htext
  · intro h
    cases h with
    | undecodable h => exact load_of_not_utf8 h
    | yaml hbytes hyaml => rw [hbytes, load_utf8, parse_crash.mpr (.inl hyaml)]
    | unreadable hbytes hyaml =>
      rw [hbytes, load_utf8, parse_crash.mpr (.inr (.inl ⟨⟨_, hyaml⟩, rfl⟩))]
    | key hbytes hyaml he hkey =>
      rw [hbytes, load_utf8, parse_crash.mpr (.inr (.inr ⟨⟨_, hyaml, _, he, hkey⟩, rfl⟩))]

theorem load_fault {f : Fault} (h : load ⟨name, some bytes⟩ = .error (.fault f)) :
    ∃ r, f = .settingsFile name r := by
  rcases File.utf8_or_not bytes with ⟨t, rfl⟩ | htext
  · rw [load_utf8] at h
    split at h <;> cases h
    exact ⟨_, rfl⟩
  · rw [load_of_not_utf8 htext] at h
    cases h

end Settings

/-! ### Loaders -/

namespace File

end File

end Reshape
