import Reshape.Proofs.Yaml.Lexing
import Reshape.Proofs.Yaml.Parsing
import Reshape.Yaml

/-! Why a YAML text has no value: its characters, its depth, or a node that is not what its tag asks for
(`parse_cause`). A text without tags leaves little that can crash the reader (`parse_untagged`). -/

namespace Reshape.Yaml

/-- What is wrong with a text that has no value. -/
inductive Cause (cs : List Char) : Fault → Prop
  /-- The text does not follow the format, or characters of it cannot be read. -/
  | characters {f : Fault} : Miswritten cs f → Cause cs f
  /-- Collections are nested too deep; each of them counts as two at most. -/
  | depth : depthLimit ≤ 2 * rise (tokens cs).ready → Cause cs (.crash .tooDeep)
  /-- A node of the document is not what its tag asks for. -/
  | node {root m : Node} {f : Fault} : Node.ofTokens (tokens cs) = .ok root → m.Within root →
    m.Refuses f → Cause cs f

variable {cs : List Char}

/-- A text without a value has something wrong with it. -/
theorem parse_cause {f : Fault} (h : parse cs = .error f) : Cause cs f := by
  unfold parse at h
  have htree := ofTokens_ends (tokens cs)
  cases hroot : Node.ofTokens (tokens cs) with
  | error g =>
    rw [hroot] at h htree
    obtain rfl : g = f := Except.error.inj h
    cases (htree : Reader.Fails _ _ _) with
    | malformed => exact .characters .malformed
    | ending => exact .characters (tokens_miswritten cs)
    | deep hdeep => exact .depth hdeep
  | ok root =>
    rw [hroot, Except.ok_bind] at h
    cases hvalue : root.value with
    | ok v =>
      rw [hvalue] at h
      cases h
    | error e =>
      rw [hvalue] at h
      obtain rfl : e.fault = f := Except.error.inj h
      rcases Node.value_flaw hvalue with hmalformed | ⟨m, hm, hrefuses⟩
      · rw [hmalformed]
        exact .characters .malformed
      · exact .node hroot hm hrefuses

/-- What is wrong with a text, if anything is. -/
def fault? (cs : List Char) : Option Fault :=
  match parse cs with
  | .error f => some f
  | .ok _ => none

theorem fault?_eq_some {f : Fault} : fault? cs = some f ↔ parse cs = .error f := by
  unfold fault?
  cases parse cs <;> simp

/-! ### Crashes -/

/-- What reading a YAML text may raise besides its own faults. -/
def crashes : List Crash :=
  [.missingKey, .missingItem, .missingAttribute, .wrongKind, .overflow, .tooDeep]

theorem charOfHex_crash {ds : List Char} {c : Crash} (h : charOfHex ds = .error (.crash c)) :
    c = .overflow := by
  unfold charOfHex at h
  dsimp only at h
  split_ifs at h <;> cases h
  rfl

theorem Miswritten.crash {c : Crash} (h : Miswritten cs (.crash c)) : c = .overflow := by
  cases h with
  | code _ _ hcode => exact charOfHex_crash hcode

theorem Tag.Chokes.mem {s : String} {t : Tag} {c : Crash} (h : Tag.Chokes s t c) : c ∈ crashes := by
  cases h <;> decide

theorem Node.Crashes.mem {n : Node} {c : Crash} (h : n.Crashes c) : c ∈ crashes := by
  cases h with
  | read _ hchokes => exact hchokes.mem
  | moment | loop => decide

/-- Reading a YAML text crashes in one of a few ways. -/
theorem parse_crash_mem {c : Crash} (h : parse cs = .error (.crash c)) : c ∈ crashes := by
  cases parse_cause h with
  | characters hcs =>
    obtain rfl := hcs.crash
    decide
  | depth => decide
  | node _ _ hrefuses => exact (Node.refuses_crash.mp hrefuses).mem

/-! ### Texts without tags -/

/-- A node that stems from tokens without tags crashes the reader only as a double with too many
parts. -/
theorem Node.Stems.crash {ts : List Token} (htags : ∀ name, .tag name ∉ ts) {m : Node}
    (hm : m.Stems ts) {c : Crash} (h : m.Crashes c) : c = .overflow := by
  cases hm with
  | plain =>
    cases h with
    | read htext hchokes =>
      obtain rfl := Except.ok.inj htext
      exact Tag.chokes_ofPlain hchokes
    | moment hleaf => cases hleaf
    | loop _ htext => cases htext
  | quoted | empty =>
    cases h with
    | read _ hchokes => cases hchokes
    | moment hleaf => cases hleaf
    | loop _ htext => cases htext
  | sequence | mapping | loop =>
    cases h with
    | read _ hchokes => cases hchokes
    | moment _ htag => cases htag
    | loop hscalar => cases hscalar
  | tagged hname => exact absurd hname (htags _)

/-- Reading a text without tags crashes only where a number is too great, or collections are nested too
deep. -/
theorem parse_untagged (htags : ∀ name, .tag name ∉ (tokens cs).ready) {c : Crash}
    (h : parse cs = .error (.crash c)) :
    c = .overflow ∨ c = .tooDeep ∧ depthLimit ≤ 2 * rise (tokens cs).ready := by
  cases parse_cause h with
  | characters hcs => exact .inl hcs.crash
  | depth hdeep => exact .inr ⟨rfl, hdeep⟩
  | node hroot hm hrefuses =>
    have htree := ofTokens_ends (tokens cs)
    rw [hroot] at htree
    exact .inl (Node.Stems.crash htags (htree _ hm) (Node.refuses_crash.mp hrefuses))

end Reshape.Yaml
