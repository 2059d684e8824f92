import Reshape.Binder
import Reshape.Proofs.Outcome
import Reshape.Proofs.Text.Utf8

/-! The forms of a schema. A text that reads as an object starts with a brace, which space may precede,
and what stands behind the brace is space, a quote or the closing brace. From these two characters the
encoding of its bytes is told. So the text, its bytes and the object compile alike. -/

namespace Reshape

namespace Json

variable {r : Reading} {cs rest : List Char} {es : List (Key × Value)}

theorem readScalar_ne_object : readScalar r cs ≠ .ok (.object es, rest) := by
  unfold readScalar
  split
  iterate 6 simp
  split
  · simp
  · intro h
    obtain ⟨n, -, hn⟩ := Except.bind_eq_ok.mp h
    cases hn

theorem front_of_readEntries {fuel depth : Nat} {acc : List (Key × Value)}
    (h : readEntries r fuel depth acc cs = .ok (es, rest)) : ∃ more, cs = '"' :: more := by
  cases fuel with
  | zero => cases h
  | succ fuel =>
    rw [readEntries.eq_def] at h
    simp only at h
    split at h
    · next more => exact ⟨more, rfl⟩
    · cases h

/-- An object starts with its brace. The first character behind it that is no space is a quote or the
closing brace. -/
theorem front_of_readValue {fuel depth : Nat}
    (h : readValue r fuel depth cs = .ok (.object es, rest)) :
    ∃ body d more, cs = '\x7b' :: body ∧ skip body = d :: more ∧ (d = '"' ∨ d = '\x7d') := by
  cases fuel with
  | zero => cases h
  | succ fuel =>
    rw [readValue.eq_def] at h
    simp only at h
    split at h
    · obtain ⟨t, -, ht⟩ := Except.bind_eq_ok.mp h
      cases ht
    · split at h
      · cases h
      · split at h
        · cases h
        · obtain ⟨items, -, hi⟩ := Except.bind_eq_ok.mp h
          cases hi
    · next body =>
      split at h
      · cases h
      · split at h
        · next more hbody => exact ⟨body, _, more, rfl, hbody, .inr rfl⟩
        · obtain ⟨entries, he, -⟩ := Except.bind_eq_ok.mp h
          obtain ⟨more, hmore⟩ := front_of_readEntries he
          exact ⟨body, _, more, rfl, hmore, .inl rfl⟩
    · exact absurd h readScalar_ne_object

/-! ### The first two characters -/

open Text (objectFronts)

theorem mem_objectFronts_of_isSpace {c : Char} (h : isSpace c = true) : c ∈ objectFronts := by
  simp only [isSpace, Bool.or_eq_true, beq_iff_eq] at h
  obtain ((rfl | rfl) | rfl) | rfl := h <;> decide

/-- What is left behind space starts as the text does, unless the text starts with space. -/
theorem front_of_skip {c : Char} (hc : c ∈ objectFronts) (h : skip cs = c :: rest) :
    ∃ d more, cs = d :: more ∧ d ∈ objectFronts ∧ (skip more = c :: rest ∨ d = c ∧ more = rest) := by
  cases cs with
  | nil => cases h
  | cons d more =>
    rw [skip, List.dropWhile_cons] at h
    split_ifs at h with hd
    · exact ⟨d, more, rfl, mem_objectFronts_of_isSpace hd, .inl h⟩
    · obtain ⟨rfl, rfl⟩ := List.cons.inj h
      exact ⟨d, more, rfl, hc, .inr ⟨rfl, rfl⟩⟩

theorem front_of_parseChars (h : parseChars r cs = .ok (.object es)) :
    ∃ a b more, cs = a :: b :: more ∧ a ∈ objectFronts ∧ b ∈ objectFronts := by
  unfold parseChars at h
  split at h
  · cases h
  · next v last hv =>
    split at h
    · cases h
      obtain ⟨body, d, more, hskip, hbody, hd⟩ := front_of_readValue hv
      have hd : d ∈ objectFronts := by obtain rfl | rfl := hd <;> decide
      obtain ⟨a, others, rfl, ha, hothers | ⟨rfl, rfl⟩⟩ := front_of_skip (by decide) hskip
      · obtain ⟨b, more, rfl, hb, -⟩ := front_of_skip (by decide) hothers
        exact ⟨a, b, more, rfl, ha, hb⟩
      · obtain ⟨b, more, rfl, hb, -⟩ := front_of_skip hd hbody
        exact ⟨_, b, more, rfl, ha, hb⟩
    · cases h

/-- The bytes of a text that reads as an object read as the same object. -/
theorem parseBytes_utf8 {t : String} (h : parseText r t = .ok (.object es)) :
    parseBytes r (Text.utf8 t) = .ok (.object es) := by
  unfold parseText at h
  split at h
  · cases h
  · obtain ⟨a, b, more, ht, ha, hb⟩ := front_of_parseChars h
    rw [parseBytes, Text.decodeDetected_utf8 ht ha hb]
    exact h

end Json

/-! ### Binders -/

namespace Binder

/-- A schema text that reads as an object, its UTF-8 bytes and the object compile alike: they fail with
the same failure, or give the same binder, with its tree and its validator. -/
theorem compile_sources {t : String} {es : List (Key × Value)}
    (h : Json.parseText .nearest t = .ok (.object es)) (s : Settings) (r : Registry) :
    compile (.text t) s r = compile (.mapping es) s r ∧
      compile (.bytes (Text.utf8 t)) s r = compile (.mapping es) s r := by
  have htext : SchemaSource.entries (.text t) = .ok es := by
    simp only [SchemaSource.entries, h]
    rfl
  have hbytes : SchemaSource.entries (.bytes (Text.utf8 t)) = .ok es := by
    simp only [SchemaSource.entries, Json.parseBytes_utf8 h]
    rfl
  have hmapping : SchemaSource.entries (.mapping es) = .ok es := rfl
  exact ⟨by rw [compile, compile, htext, hmapping], by rw [compile, compile, hbytes, hmapping]⟩

/-- A text that starts with space, and with characters of one to four bytes. -/
theorem compile_sources_four_bytes :
    let t := "\n\x7b \"default\": \"né € 𝄞\"\x7d"
    let s : Settings := { validateOutput := false }
    (Text.utf8 t).length = t.length + 6 ∧
      ∃ es b, Json.parseText .nearest t = .ok (.object es) ∧ compile (.text t) s .default = .ok b ∧
        compile (.bytes (Text.utf8 t)) s .default = .ok b ∧
        compile (.mapping es) s .default = .ok b := by
  intro t s
  have hcompiles : ((compile (.text t) s .default).toOption).isSome = true := by decide +kernel
  have hmember : ((Json.parseText .nearest t).toOption.bind (·.get? "default")).isSome = true := by
    decide +kernel
  rcases hread : Json.parseText .nearest t with _ | v
  · rw [hread] at hmember
    cases hmember
  · rw [hread] at hmember
    cases v with
    | object es =>
      obtain ⟨htext, hbytes⟩ := compile_sources hread s .default
      rw [htext] at hcompiles
      rcases hb : compile (.mapping es) s .default with _ | b
      · rw [hb] at hcompiles
        cases hcompiles
      · exact ⟨by decide +kernel, es, b, rfl, htext.trans hb, hbytes.trans hb, hb⟩
    | _ => cases hmember

end Binder

end Reshape
