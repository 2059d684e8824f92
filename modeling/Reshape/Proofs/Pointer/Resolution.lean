import Reshape.Proofs.Pointer
import Reshape.Proofs.Value.Shape
import Reshape.Proofs.Value.Writing
import Reshape.Strategy

/-! What a pointer stands for. Its text spells reference tokens, each behind a slash and with its
escapes, and `Leads` says where such tokens lead: by the name of a member, or by the decimal digits of
the index of an item. A strategy finds exactly that, and nothing where the tokens lead nowhere. -/

namespace Reshape.Pointer

/-- The text of reference tokens. -/
def spell (ts : List String) : List Char := ts.flatMap fun t => '/' :: escape t.toList

/-- Where reference tokens lead from a value. The digits of an index have no leading zeros. -/
inductive Leads : List String → Value → Value → Prop
  | here (v : Value) : Leads [] v v
  | member {t : String} {ts : List String} {es : List (Key × Value)} {v w : Value} :
    (.text t, v) ∈ es → Leads ts v w → Leads (t :: ts) (.object es) w
  | element {i : Nat} {ts : List String} {items : List Value} {v w : Value} :
    items[i]? = some v → Leads ts v w → Leads (toString i :: ts) (.array items) w

/-! ### Texts of pointers -/

/-- A piece without slashes is the only way to write what it is read as. -/
theorem escape_of_unescape {cs ds : List Char} (hcs : '/' ∉ cs) (h : unescape cs = some ds) :
    escape ds = cs := by
  fun_induction unescape cs generalizing ds with
  | case1 =>
    obtain rfl := Option.some.inj h
    rfl
  | case2 rest ih | case3 rest ih =>
    obtain ⟨es, he, rfl⟩ := Option.map_eq_some_iff.mp h
    rw [escape, ih (fun hm => hcs (by simp [hm])) he]
  | case4 => cases h
  | case5 c rest _ _ htilde ih =>
    obtain ⟨es, he, rfl⟩ := Option.map_eq_some_iff.mp h
    rw [List.mem_cons, not_or] at hcs
    rw [escape, ih hcs.2 he]
    · exact htilde
    · exact fun hc => hcs.1 hc.symm

theorem slash_not_mem_of_pieces {cs p : List Char} (hp : p ∈ pieces cs) : '/' ∉ p := by
  induction cs generalizing p with
  | nil => simp_all [pieces]
  | cons c rest ih =>
    by_cases hc : c = '/'
    · subst hc
      rcases List.mem_cons.mp hp with rfl | hp
      · exact List.not_mem_nil
      · exact ih hp
    · obtain ⟨q, qs, hq⟩ := List.exists_cons_of_ne_nil (pieces_ne_nil rest)
      simp only [pieces, hq] at hp
      rcases List.mem_cons.mp hp with rfl | hp
      · simp [Ne.symm hc, ih (hq ▸ List.mem_cons_self)]
      · exact ih (hq ▸ List.mem_cons_of_mem _ hp)

/-- The pieces of a text with slashes between them are the text. -/
theorem join_pieces {cs p : List Char} {ps : List (List Char)} (h : pieces cs = p :: ps) :
    p ++ ps.flatMap ('/' :: ·) = cs := by
  induction cs generalizing p ps with
  | nil =>
    obtain ⟨rfl, rfl⟩ := List.cons.inj h
    rfl
  | cons c rest ih =>
    obtain ⟨q, qs, hq⟩ := List.exists_cons_of_ne_nil (pieces_ne_nil rest)
    by_cases hc : c = '/'
    · subst hc
      simp only [pieces, hq] at h
      obtain ⟨rfl, rfl⟩ := List.cons.inj h
      simp [ih hq]
    · simp only [pieces, hq] at h
      obtain ⟨rfl, rfl⟩ := List.cons.inj h
      simp [ih hq]

theorem map_escape_of_mapM {ps qs : List (List Char)} (hps : ∀ p ∈ ps, '/' ∉ p)
    (h : ps.mapM unescape = some qs) : qs.map escape = ps := by
  induction ps generalizing qs with
  | nil =>
    obtain rfl : [] = qs := by simpa using h
    rfl
  | cons p ps ih =>
    obtain ⟨hp, hps⟩ := List.forall_mem_cons.mp hps
    simp only [List.mapM_cons, Option.bind_eq_bind, Option.bind_eq_some_iff] at h
    obtain ⟨q, hq, rest, hrest, h⟩ := h
    obtain rfl := Option.some.inj h
    rw [List.map_cons, escape_of_unescape hp hq, ih hps hrest]

/-- A text is a pointer exactly if it spells reference tokens. -/
theorem parse_eq_ok_iff {s : String} {ts : List String} :
    parse s = .ok ⟨ts⟩ ↔ s.toList = spell ts := by
  constructor
  · intro h
    rw [parse_eq_ok] at h
    obtain ⟨p, ps, hp⟩ := List.exists_cons_of_ne_nil (pieces_ne_nil s.toList)
    have hpieces := map_escape_of_mapM (fun _ => slash_not_mem_of_pieces) h
    rw [hp] at hpieces
    obtain ⟨rfl, rfl⟩ := List.cons.inj hpieces
    simpa [spell, escape, List.flatMap_map] using (join_pieces hp).symm
  · intro h
    induction ts using List.reverseRecOn generalizing s with
    | nil =>
      obtain rfl : s = "" := by simpa [spell] using h
      rfl
    | append_singleton ts t ih =>
      have hs : s = String.ofList (spell ts) ++ "/" ++ String.ofList (escape t.toList) := by
        apply String.toList_injective
        simpa [spell] using h
      rw [hs]
      exact parse_member (ih (by simp)) t

/-! ### Steps -/

theorem index?_eq_some {t : String} {i : Nat} : index? t = some i ↔ t = toString i := by
  constructor
  · intro h
    apply String.toList_injective
    rw [Nat.toString_eq_repr, Nat.toList_repr]
    unfold index? at h
    split at h
    · next hzero =>
      obtain rfl := Option.some.inj h
      exact hzero
    · next c cs hzero ht =>
      split_ifs at h with hc
      obtain ⟨hne, hdigits⟩ : c ≠ '0' ∧ ∀ d ∈ c :: cs, d.isDigit = true := by simpa using hc
      obtain rfl := Option.some.inj h
      rw [ht]
      exact (Text.toDigits_natOfDigits hdigits hne).symm
    · cases h
  · rintro rfl
    exact index?_toString i

theorem step_array (t : String) (items : List Value) :
    step t (.array items) = (index? t).bind (items[·]?) := rfl

/-- A step finds what the first token of a way leads to. -/
theorem step_of_leads {t : String} {ts : List String} {v w : Value} (hv : v.Keyed)
    (h : Leads (t :: ts) v w) : ∃ u, step t v = some u ∧ Leads ts u w := by
  cases h with
  | member hm hw => exact ⟨_, Entries.find?_of_mem hv.nodup hm, hw⟩
  | element hi hw => exact ⟨_, by rw [step_array, index?_toString, Option.bind_some, hi], hw⟩

theorem leads_of_step {t : String} {ts : List String} {v u w : Value} (h : step t v = some u)
    (hw : Leads ts u w) : Leads (t :: ts) v w := by
  cases v with
  | object es => exact .member (Entries.mem_of_find? h) hw
  | array items =>
    obtain ⟨i, ht, hi⟩ := Option.bind_eq_some_iff.mp h
    obtain rfl := index?_eq_some.mp ht
    exact .element hi hw
  | _ => cases h

theorem keyed_of_step {t : String} {v u : Value} (hv : v.Keyed) (h : step t v = some u) :
    u.Keyed := by
  cases v with
  | object es => exact hv.member (Entries.mem_of_find? h)
  | array items =>
    obtain ⟨i, -, hi⟩ := Option.bind_eq_some_iff.mp h
    exact hv.item (List.mem_of_getElem? hi)
  | _ => cases h

/-- Walking along reference tokens ends where they lead. -/
theorem walk_eq_some_iff {ts : List String} {v w : Value} (hv : v.Keyed) :
    walk ts v = some w ↔ Leads ts v w := by
  induction ts generalizing v with
  | nil =>
    constructor
    · intro h
      obtain rfl := Option.some.inj h
      exact .here v
    · rintro ⟨⟩
      rfl
  | cons t ts ih =>
    rw [walk, Option.bind_eq_some_iff]
    constructor
    · rintro ⟨u, hu, hw⟩
      exact leads_of_step hu ((ih (keyed_of_step hv hu)).mp hw)
    · intro h
      obtain ⟨u, hu, hw⟩ := step_of_leads hv h
      exact ⟨u, hu, (ih (keyed_of_step hv hu)).mpr hw⟩

/-- What reference tokens lead to is part of the value that they start from. -/
theorem exists_way_of_leads {ts : List String} {v w : Value} (hv : v.Keyed) (h : Leads ts v w) :
    ∃ way, v.at? way = some w := by
  induction h with
  | here v => exact ⟨[], rfl⟩
  | @member t ts es v w hm _ ih =>
    obtain ⟨way, hway⟩ := ih (hv.member hm)
    exact ⟨.name (.text t) :: way, by
      simpa [Value.at?, Value.child?, Entries.find?_of_mem hv.nodup hm] using hway⟩
  | @element i ts items v w hi _ ih =>
    obtain ⟨way, hway⟩ := ih (hv.item (List.mem_of_getElem? hi))
    exact ⟨.slot i :: way, by simpa [Value.at?, Value.child?, hi] using hway⟩

/-! ### Strategies -/

end Reshape.Pointer
