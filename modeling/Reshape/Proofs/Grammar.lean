import Reshape.Proofs.Directive
import Reshape.Proofs.Registry

/-! The grammar of directives. In a registry that is built by calls, a directive is split exactly if
it is the name of a registered family, a colon and an expression; every family can be named this way
with every expression. -/

namespace Reshape.Directive

/-- A text that names a registered family in front of an expression. -/
def Spells (r : Registry) (s : String) (d : Directive) : Prop :=
  r.contains d.family = true ∧ s = d.family ++ ":" ++ d.expression

/-- What stands before the first colon of a text, if that is in the window. -/
def Fronts (name s : String) : Prop :=
  ∃ rest, s = name ++ ":" ++ rest ∧ ':' ∉ name.toList ∧ name.toList.length < window

variable {r : Registry} {s default : String}

theorem fronts_of_cut {head rest : List Char} (h : cut s.toList = some (head, rest)) :
    Fronts (String.ofList head) s := by
  obtain ⟨hs, hc, hl⟩ := cut_eq_some_iff.mp h
  refine ⟨String.ofList rest, ?_, by simpa using hc, by simpa using hl⟩
  rw [← String.toList_inj, hs]
  simp

theorem Fronts.unique {a b : String} (ha : Fronts a s) (hb : Fronts b s) : a = b := by
  have hcut : ∀ {name}, Fronts name s → ∃ rest, cut s.toList = some (name.toList, rest) := by
    rintro name ⟨rest, rfl, hc, hl⟩
    have hcut := @cut_append name.toList rest.toList hc hl
    exact ⟨rest.toList, by simpa using hcut⟩
  obtain ⟨x, hx⟩ := hcut ha
  obtain ⟨y, hy⟩ := hcut hb
  exact String.toList_inj.mp (Prod.mk.inj (Option.some.inj (hx.symm.trans hy))).1

/-- Only what stands before the first colon can be split off. -/
theorem splitIn_congr {r' : Registry}
    (h : ∀ name, Fronts name s → r'.contains name = r.contains name) :
    splitIn r' s default = splitIn r s default := by
  unfold splitIn split
  split
  · next head rest hcut => rw [h _ (fronts_of_cut hcut)]
  · rfl

/-- What is split off stands before the first colon, which is in the window. -/
theorem splitIn_of_spells (hr : r.Addressable) {d : Directive} (h : Spells r s d) :
    splitIn r s default = d := by
  obtain ⟨hd, rfl⟩ := h
  obtain ⟨hn, hc, hl⟩ := hr.of_contains hd
  exact split_append d.expression hd hn hc hl

theorem splitIn_of_not_spells (h : ∀ d, ¬ Spells r s d) : splitIn r s default = ⟨default, s⟩ := by
  unfold splitIn split
  split
  · next head rest hcut =>
    obtain ⟨hs, -, -⟩ := cut_eq_some_iff.mp hcut
    refine if_neg fun hregistered => ?_
    obtain ⟨-, hr⟩ := Bool.and_eq_true_iff.mp hregistered
    refine h ⟨String.ofList head, String.ofList rest⟩ ⟨hr, ?_⟩
    rw [← String.toList_inj, hs]
    simp
  · rfl

/-- A directive as a text that names its family. -/
def spelled (d : Directive) : String := d.family ++ ":" ++ d.expression

/-- A directive that names its family is split as before, whatever the default family is now. -/
theorem splitIn_spelled (hr : r.Addressable) (hd : r.contains default = true) (s default' : String) :
    splitIn r (splitIn r s default).spelled default' = splitIn r s default :=
  splitIn_of_spells hr ⟨Registry.contains_splitIn hd s, rfl⟩

/-- However a registry is built, a directive that spells a family and an expression is split into them,
and there is one way only to read it so; any other text is an expression of the default family. -/
theorem splitIn_grammar (calls : List Registry.Registration) (default s : String) :
    let r := Registry.built calls
    (∀ d, Spells r s d → splitIn r s default = d ∧ ∀ d', Spells r s d' → d' = d) ∧
      ((∀ d, ¬ Spells r s d) → splitIn r s default = ⟨default, s⟩) := by
  intro r
  have hr : r.Addressable := Registry.addressable_built calls
  refine ⟨fun d hd => ?_, splitIn_of_not_spells⟩
  have hsplit : splitIn r s default = d := splitIn_of_spells hr hd
  exact ⟨hsplit, fun d' hd' => (splitIn_of_spells hr hd').symm.trans hsplit⟩

/-- A name of seven characters is the longest one that can be registered. -/
theorem splitIn_grammar_longest :
    let calls : List Registry.Registration :=
      [.family ⟨"seventh", none, fun _ => .ok .absent⟩,
        .family ⟨"eighthly", none, fun _ => .ok .absent⟩]
    let r := Registry.built calls
    (Spells r "seventh::a" ⟨"seventh", ":a"⟩ ∧ splitIn r "seventh::a" "nil" = ⟨"seventh", ":a"⟩) ∧
      (∀ d, ¬ Spells r "eighthly:a" d) ∧ splitIn r "eighthly:a" "nil" = ⟨"nil", "eighthly:a"⟩ := by
  intro calls r
  have hr : r = ⟨[⟨"seventh", none, fun _ => .ok .absent⟩], []⟩ := rfl
  have hcontains : ∀ f, r.contains f = true ↔ "seventh" = f := by
    simp [hr, Registry.contains, Registry.find?]
  have hspells : Spells r "seventh::a" ⟨"seventh", ":a"⟩ := ⟨(hcontains _).mpr rfl, rfl⟩
  have hnot : ∀ d, ¬ Spells r "eighthly:a" d := by
    rintro ⟨f, e⟩ ⟨hf, he⟩
    obtain rfl := (hcontains f).mp hf
    simpa using congrArg String.toList he
  obtain ⟨hsplit, -⟩ := splitIn_grammar calls "nil" "seventh::a"
  obtain ⟨-, hwhole⟩ := splitIn_grammar calls "nil" "eighthly:a"
  exact ⟨⟨hspells, (hsplit _ hspells).1⟩, hnot, hwhole hnot⟩

end Reshape.Directive
