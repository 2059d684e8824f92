import Reshape.Json.Parser
import Reshape.Proofs.Outcome
import Reshape.Proofs.Value.Shape

/-! What a JSON text can give: only plain values, and a number out of range only where numbers are read
exactly. -/

namespace Reshape.Json

theorem readScalar_plain {r : Reading} {cs rest : List Char} {v : Value}
    (h : readScalar r cs = .ok (v, rest)) : v.Plain := by
  unfold readScalar at h
  split at h
  iterate 6
    · cases h
      constructor
  · split at h
    · cases h
    · obtain ⟨n, _, hn⟩ := Except.bind_eq_ok.mp h
      cases hn
      exact .number n

/-- Values, items and entries that are read are plain. -/
theorem read_plain (r : Reading) (fuel : Nat) :
    (∀ depth cs v rest, readValue r fuel depth cs = .ok (v, rest) → v.Plain) ∧
      (∀ depth cs items rest, readItems r fuel depth cs = .ok (items, rest) → ∀ v ∈ items, v.Plain) ∧
      ∀ depth acc cs es rest, (Value.object acc).Plain →
        readEntries r fuel depth acc cs = .ok (es, rest) → (Value.object es).Plain := by
  induction fuel with
  | zero => simp [readValue, readItems, readEntries]
  | succ fuel ih =>
    obtain ⟨hvalue, hitems, hentries⟩ := ih
    refine ⟨?value, ?items, ?entries⟩
    case value =>
      intro depth cs v rest h
      rw [readValue.eq_def] at h
      simp only at h
      split at h
      · obtain ⟨⟨t, more⟩, _, ht⟩ := Except.bind_eq_ok.mp h
        cases ht
        exact .text _
      · split at h
        · cases h
        · split at h
          · cases h
            exact .array (by simp)
          · obtain ⟨⟨items, more⟩, hi, ht⟩ := Except.bind_eq_ok.mp h
            cases ht
            exact .array (hitems _ _ _ _ hi)
      · split at h
        · cases h
        · split at h
          · cases h
            exact .object (by simp) (by simp) (by simp)
          · obtain ⟨⟨es, more⟩, he, ht⟩ := Except.bind_eq_ok.mp h
            cases ht
            exact hentries _ _ _ _ _ (.object (by simp) (by simp) (by simp)) he
      · exact readScalar_plain h
    case items =>
      intro depth cs items rest h
      rw [readItems] at h
      obtain ⟨⟨v, more⟩, hv, h⟩ := Except.bind_eq_ok.mp h
      have hplain := hvalue _ _ _ _ hv
      simp only at h
      split at h
      · cases h
        simpa using hplain
      · obtain ⟨⟨others, last⟩, ho, ht⟩ := Except.bind_eq_ok.mp h
        cases ht
        exact List.forall_mem_cons.mpr ⟨hplain, hitems _ _ _ _ ho⟩
      · cases h
    case entries =>
      intro depth acc cs es rest hacc h
      rw [readEntries.eq_def] at h
      simp only at h
      split at h
      · obtain ⟨⟨key, more⟩, _, h⟩ := Except.bind_eq_ok.mp h
        simp only at h
        split at h
        · obtain ⟨⟨v, more⟩, hv, h⟩ := Except.bind_eq_ok.mp h
          have hacc' := hacc.insert (String.ofList key) (hvalue _ _ _ _ hv)
          simp only at h
          split at h
          · cases h
            exact hacc'
          · exact hentries _ _ _ _ _ hacc' h
          · cases h
        · cases h
      · cases h

theorem parseChars_plain {r : Reading} {cs : List Char} {v : Value} (h : parseChars r cs = .ok v) :
    v.Plain := by
  unfold parseChars at h
  split at h
  · cases h
  · next w rest hw =>
    have hplain := (read_plain r _).1 _ _ _ _ hw
    split at h
    · cases h
      exact hplain
    · cases h

theorem parseBytes_plain {r : Reading} {bytes : Text.Bytes} {v : Value}
    (h : parseBytes r bytes = .ok v) : v.Plain := by
  unfold parseBytes at h
  split at h
  · cases h
  · exact parseChars_plain h

/-! ### Numbers out of range -/

theorem readString_ne_range (start : List Char) (high : Option Nat) (cs : List Char) :
    readString start high cs ≠ .error .range := by
  fun_induction readString start high cs <;> simp_all [Functor.map, Except.map_eq_error]

theorem readScalar_ne_range (cs : List Char) : readScalar .nearest cs ≠ .error .range := by
  unfold readScalar
  split
  iterate 6 simp
  split
  · simp
  · next n rest hn =>
    refine Except.bind_ne_error ?_ fun _ => by simp [pure, Except.pure]
    unfold readNumber
    split_ifs <;> simp

/-- Only exact numbers can be out of range. -/
theorem read_ne_range (fuel : Nat) :
    (∀ depth cs, readValue .nearest fuel depth cs ≠ .error .range) ∧
      (∀ depth cs, readItems .nearest fuel depth cs ≠ .error .range) ∧
      ∀ depth acc cs, readEntries .nearest fuel depth acc cs ≠ .error .range := by
  induction fuel with
  | zero => simp [readValue, readItems, readEntries]
  | succ fuel ih =>
    obtain ⟨hvalue, hitems, hentries⟩ := ih
    refine ⟨?value, ?items, ?entries⟩
    case value =>
      intro depth cs
      rw [readValue.eq_def]
      simp only
      split
      · exact Except.bind_ne_error (readString_ne_range _ _ _) fun _ => by simp [pure, Except.pure]
      · split
        · simp
        · split
          · simp
          · exact Except.bind_ne_error (hitems _ _) fun _ => by simp [pure, Except.pure]
      · split
        · simp
        · split
          · simp
          · exact Except.bind_ne_error (hentries _ _ _) fun _ => by simp [pure, Except.pure]
      · exact readScalar_ne_range cs
    case items =>
      intro depth cs
      rw [readItems]
      refine Except.bind_ne_error (hvalue _ _) fun x => ?_
      simp only
      split
      · simp [pure, Except.pure]
      · exact Except.bind_ne_error (hitems _ _) fun _ => by simp [pure, Except.pure]
      · simp
    case entries =>
      intro depth acc cs
      rw [readEntries.eq_def]
      simp only
      split
      · refine Except.bind_ne_error (readString_ne_range _ _ _) fun x => ?_
        split
        · refine Except.bind_ne_error (hvalue _ _) fun y => ?_
          split
          · simp [pure, Except.pure]
          · exact hentries _ _ _
          · simp
        · simp
      · simp

theorem parseBytes_ne_range (bytes : Text.Bytes) :
    parseBytes .nearest bytes ≠ .error .outOfRange := by
  unfold parseBytes parseChars
  split
  · simp
  · next cs hcs =>
    split
    · next stop hstop =>
      have hne : stop ≠ .range := fun h => (read_ne_range _).1 _ _ (h ▸ hstop)
      cases stop <;> simp_all [Stop.fault]
    · split <;> simp [Stop.fault]

end Reshape.Json
