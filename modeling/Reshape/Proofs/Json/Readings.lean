import Reshape.Proofs.Double.Nearest
import Reshape.Proofs.Entries
import Reshape.Proofs.Json.Plain

/-! One text, read in two ways. Where numerals with a fraction or an exponent are read exactly in place
of to the nearest double, nothing else changes: what is read has the same shape, the same keys in the
same order, and the same texts, whole numbers and words, and what cannot be read is refused for the same
reason. The one exception is a numeral beyond the range of decimals, at which the exact reading stops. -/

namespace Reshape.Json

/-- The second value is the first one with each numeral that has a fraction or an exponent read
exactly. -/
inductive Reread : Value → Value → Prop
  | null : Reread .null .null
  | bool (b : Bool) : Reread (.bool b) (.bool b)
  | text (s : String) : Reread (.text s) (.text s)
  | int (n : Int) : Reread (.int n) (.int n)
  | nan : Reread (.double .nan) (.double .nan)
  | infinity (negative : Bool) : Reread (.double (.infinity negative)) (.double (.infinity negative))
  | numeral {n : Numeral} : n.isWhole = false →
    Reread (.double (nearestDouble n.toDecimal)) (.decimal n.toDecimal)
  | array {vs ws : List Value} : List.Forall₂ Reread vs ws → Reread (.array vs) (.array ws)
  | object {es fs : List (Key × Value)} : Entries.keys es = Entries.keys fs →
    List.Forall₂ Reread (es.map Prod.snd) (fs.map Prod.snd) → Reread (.object es) (.object fs)

namespace Reread

variable {es fs : List (Key × Value)} {v w : Value}

theorem find? (hk : Entries.keys es = Entries.keys fs)
    (hv : List.Forall₂ Reread (es.map Prod.snd) (fs.map Prod.snd)) (k : Key) :
    Option.Rel Reread (Entries.find? k es) (Entries.find? k fs) := by
  induction es generalizing fs with
  | nil =>
    obtain rfl : fs = [] := List.map_eq_nil_iff.mp hk.symm
    exact .none
  | cons x es ih =>
    cases fs with
    | nil => simp at hk
    | cons y fs =>
      obtain ⟨j, v⟩ := x
      obtain ⟨j', w⟩ := y
      simp only [Entries.keys_cons, List.cons.injEq] at hk
      obtain ⟨rfl, hk⟩ := hk
      obtain ⟨hvw, hv⟩ := List.forall₂_cons.mp hv
      rw [Entries.find?, Entries.find?]
      split_ifs
      · exact .some hvw
      · exact ih hk hv

theorem get? (h : Reread v w) (k : String) : Option.Rel Reread (v.get? k) (w.get? k) := by
  cases h with
  | object hk hv => exact find? hk hv _
  | _ => exact .none

end Reread

/-- As `Reread`, with numerals that are among `ns`. -/
inductive RereadFrom (ns : List Numeral) : Value → Value → Prop
  | null : RereadFrom ns .null .null
  | bool (b : Bool) : RereadFrom ns (.bool b) (.bool b)
  | text (s : String) : RereadFrom ns (.text s) (.text s)
  | int (n : Int) : RereadFrom ns (.int n) (.int n)
  | nan : RereadFrom ns (.double .nan) (.double .nan)
  | infinity (negative : Bool) :
    RereadFrom ns (.double (.infinity negative)) (.double (.infinity negative))
  | numeral {n : Numeral} : n ∈ ns → n.isWhole = false →
    RereadFrom ns (.double (nearestDouble n.toDecimal)) (.decimal n.toDecimal)
  | array {vs ws : List Value} : List.Forall₂ (RereadFrom ns) vs ws →
    RereadFrom ns (.array vs) (.array ws)
  | object {es fs : List (Key × Value)} : Entries.keys es = Entries.keys fs →
    List.Forall₂ (RereadFrom ns) (es.map Prod.snd) (fs.map Prod.snd) →
    RereadFrom ns (.object es) (.object fs)

namespace RereadFrom

variable {ns : List Numeral} {es fs : List (Key × Value)} {v w : Value}

theorem insert (h : RereadFrom ns (.object es) (.object fs)) (k : Key) (hvw : RereadFrom ns v w) :
    RereadFrom ns (.object (Entries.insert k v es)) (.object (Entries.insert k w fs)) := by
  cases h with
  | object hk hv =>
    exact .object (by rw [Entries.keys_insert, Entries.keys_insert, hk]) (Entries.forall₂_insert hk hv k hvw)

theorem reread (h : RereadFrom ns v w) : Reread v w := by
  refine @RereadFrom.rec ns (fun v w _ => Reread v w) (fun vs ws _ => List.Forall₂ Reread vs ws)
    .null .bool .text .int .nan .infinity ?numeral ?array ?object .nil ?cons v w h
  case numeral => exact fun _ hn => .numeral hn
  case array => exact fun _ ih => .array ih
  case object => exact fun hk _ ih => .object hk ih
  case cons => exact fun _ _ hvw ih => .cons hvw ih

end RereadFrom

/-! ### Numerals that are met -/

/-- What is met behind a part that is read. -/
def metBehind {α : Type} (x : Except Stop (α × List Char)) (more : List Char → List Numeral) :
    List Numeral :=
  match x with
  | .error _ => []
  | .ok (_, rest) => more rest

/-- What is met behind a separator, if it is next. -/
def metNext (separator : Char) (more : List Char → List Numeral) (cs : List Char) : List Numeral :=
  match skip cs with
  | [] => []
  | c :: rest => if c = separator then more (skip rest) else []

/-- A numeral with a fraction or an exponent at the start of a text. -/
def metInScalar (cs : List Char) : List Numeral :=
  match readNumeral cs with
  | none => []
  | some (n, _) => if n.isWhole then [] else [n]

mutual

/-- The numerals with a fraction or an exponent that reading a value comes to. -/
def metInValue : Nat → Nat → List Char → List Numeral
  | 0, _, _ => []
  | fuel + 1, depth, cs =>
    match cs with
    | '[' :: rest =>
      match depth with
      | 0 => []
      | depth + 1 =>
        match skip rest with
        | ']' :: _ => []
        | rest => metInItems fuel depth rest
    | '\x7b' :: rest =>
      match depth with
      | 0 => []
      | depth + 1 =>
        match skip rest with
        | '\x7d' :: _ => []
        | rest => metInEntries fuel depth rest
    | _ => metInScalar cs

def metInItems : Nat → Nat → List Char → List Numeral
  | 0, _, _ => []
  | fuel + 1, depth, cs =>
    metInValue fuel depth cs ++
      metBehind (readValue .nearest fuel depth cs) (metNext ',' (metInItems fuel depth))

def metInEntries : Nat → Nat → List Char → List Numeral
  | 0, _, _ => []
  | fuel + 1, depth, cs =>
    match cs with
    | '"' :: rest =>
      metBehind (readString cs none rest) <| metNext ':' fun rest =>
        metInValue fuel depth rest ++
          metBehind (readValue .nearest fuel depth rest) (metNext ',' (metInEntries fuel depth))
    | _ => []

end

/-- The numerals with a fraction or an exponent that reading a document comes to, up to its end or to
where it cannot be read. -/
def met (bytes : Text.Bytes) : List Numeral :=
  match Text.decodeDetected bytes with
  | .error _ => []
  | .ok cs => metInValue (2 * cs.length + 2) depthLimit (skip cs)

/-- Whether each numeral can be held as a decimal. -/
def InRange (ns : List Numeral) : Prop := ∀ n ∈ ns, n.toDecimal.inRange = true

theorem InRange.append {ns ms : List Numeral} (hns : InRange ns) (hms : InRange ms) :
    InRange (ns ++ ms) :=
  List.forall_mem_append.mpr ⟨hns, hms⟩

/-! ### Reading -/

/-- Both stop with the same error, or both give related results and stop at the same place, if what is
met is in range. The second one stops at a numeral out of range. -/
inductive Corresponds {α β : Type} (R : α → β → Prop) (ns : List Numeral) :
    Except Stop (α × List Char) → Except Stop (β × List Char) → Prop
  | error (e : Stop) : InRange ns → Corresponds R ns (.error e) (.error e)
  | ok {a : α} {b : β} (rest : List Char) : InRange ns → R a b →
    Corresponds R ns (.ok (a, rest)) (.ok (b, rest))
  | range (x : Except Stop (α × List Char)) {n : Numeral} : n ∈ ns → n.toDecimal.inRange = false →
    Corresponds R ns x (.error .range)

namespace Corresponds

variable {α β γ δ : Type} {R : α → β → Prop} {S : γ → δ → Prop} {ns ms : List Numeral}
  {x : Except Stop (α × List Char)} {y : Except Stop (β × List Char)}

theorem stop (e : Stop) : Corresponds R [] (.error e) (.error e) := .error e nofun

theorem read {a : α} {b : β} (rest : List Char) (hab : R a b) :
    Corresponds R [] (.ok (a, rest)) (.ok (b, rest)) :=
  .ok rest nofun hab

theorem of_eq {R : α → α → Prop} (hR : ∀ a, R a a) (x : Except Stop (α × List Char)) :
    Corresponds R [] x x := by
  cases x with
  | error e => exact stop e
  | ok a => exact read a.2 (hR a.1)

theorem prepend (hns : InRange ns) (h : Corresponds R ms x y) : Corresponds R (ns ++ ms) x y := by
  cases h with
  | error e hms => exact .error e (hns.append hms)
  | ok rest hms hab => exact .ok rest (hns.append hms) hab
  | range x hn hrange => exact .range x (List.mem_append_right ns hn) hrange

/-- One reading behind another. What is met is among `all` in each of them if it is in both. -/
theorem bind {all : List Numeral} {more : List Char → List Numeral}
    (hall : ns ++ metBehind x more ⊆ all) (h : ns ⊆ all → Corresponds R ns x y)
    {f : α × List Char → Except Stop (γ × List Char)} {g : β × List Char → Except Stop (δ × List Char)}
    (hfg : ∀ a b rest, more rest ⊆ all → R a b →
      Corresponds S (more rest) (f (a, rest)) (g (b, rest))) :
    Corresponds S (ns ++ metBehind x more) (x >>= f) (y >>= g) := by
  obtain ⟨hns, hmore⟩ := List.append_subset.mp hall
  cases h hns with
  | error e hns => exact .error e (hns.append nofun)
  | ok rest hns hab => exact (hfg _ _ rest hmore hab).prepend hns
  | range x hn hrange => exact .range _ (List.mem_append_left _ hn) hrange

/-- Behind what is read, nothing is met. -/
theorem then_read (h : Corresponds R ns x y) {f : α × List Char → Except Stop (γ × List Char)}
    {g : β × List Char → Except Stop (δ × List Char)}
    (hfg : ∀ a b rest, R a b → Corresponds S [] (f (a, rest)) (g (b, rest))) :
    Corresponds S ns (x >>= f) (y >>= g) := by
  cases h with
  | error e hns => exact .error e hns
  | ok rest hns hab =>
    have hread := (hfg _ _ rest hab).prepend hns
    rwa [List.append_nil] at hread
  | range x hn hrange => exact .range _ hn hrange

end Corresponds

theorem metNext_of_eq {c : Char} {cs rest : List Char} (h : skip cs = c :: rest)
    (more : List Char → List Numeral) : metNext c more cs = more (skip rest) := by
  simp [metNext, h]

theorem metNext_of_ne {c : Char} {cs : List Char} (h : ∀ rest, skip cs ≠ c :: rest)
    (more : List Char → List Numeral) : metNext c more cs = [] := by
  unfold metNext
  split
  · rfl
  · next d rest hd =>
    refine if_neg fun hc => ?_
    subst hc
    exact h rest hd

theorem readScalar_corresponds {cs : List Char} {all : List Numeral} (hall : metInScalar cs ⊆ all) :
    Corresponds (RereadFrom all) (metInScalar cs) (readScalar .nearest cs) (readScalar .exact cs) := by
  unfold readScalar
  split
  iterate 6 exact .read _ (by constructor)
  rw [metInScalar] at hall ⊢
  rcases hread : readNumeral cs with _ | ⟨n, rest⟩
  · exact .stop _
  · rw [hread] at hall
    simp only [readNumber] at hall ⊢
    split_ifs at hall ⊢ with hwhole hlong hrange
    · exact .stop _
    · exact .read rest (.int _)
    · exact .ok rest (List.forall_mem_singleton.mpr hrange)
        (.numeral (hall (List.mem_singleton_self n)) (Bool.eq_false_iff.mpr hwhole))
    · exact .range _ (List.mem_singleton_self n) (Bool.eq_false_iff.mpr hrange)

/-- Values, items and entries that are read in both ways correspond. -/
theorem read_corresponds (all : List Numeral) (fuel : Nat) :
    (∀ depth cs, metInValue fuel depth cs ⊆ all →
      Corresponds (RereadFrom all) (metInValue fuel depth cs) (readValue .nearest fuel depth cs)
        (readValue .exact fuel depth cs)) ∧
    (∀ depth cs, metInItems fuel depth cs ⊆ all →
      Corresponds (List.Forall₂ (RereadFrom all)) (metInItems fuel depth cs)
        (readItems .nearest fuel depth cs) (readItems .exact fuel depth cs)) ∧
    ∀ depth es fs cs, metInEntries fuel depth cs ⊆ all → RereadFrom all (.object es) (.object fs) →
      Corresponds (fun es fs => RereadFrom all (.object es) (.object fs)) (metInEntries fuel depth cs)
        (readEntries .nearest fuel depth es cs) (readEntries .exact fuel depth fs cs) := by
  induction fuel with
  | zero =>
    simp only [readValue, readItems, readEntries, metInValue, metInItems, metInEntries]
    exact ⟨fun _ _ _ => .stop _, fun _ _ _ => .stop _, fun _ _ _ _ _ _ => .stop _⟩
  | succ fuel ih =>
    obtain ⟨hvalue, hitems, hentries⟩ := ih
    refine ⟨?value, ?items, ?entries⟩
    case value =>
      intro depth cs hall
      rw [readValue.eq_def, readValue.eq_def]
      simp only
      split
      · refine (Corresponds.of_eq Eq.refl _).then_read fun t _ rest ht => ?_
        subst ht
        exact .read rest (.text _)
      · split
        · exact .stop _
        · split
          · next hclose =>
            simp only [metInValue, hclose]
            exact .read _ (.array .nil)
          · simp only [metInValue] at hall ⊢
            exact (hitems _ _ hall).then_read fun _ _ rest hvs => .read rest (.array hvs)
      · split
        · exact .stop _
        · split
          · next hclose =>
            simp only [metInValue, hclose]
            exact .read _ (.object rfl .nil)
          · simp only [metInValue] at hall ⊢
            exact (hentries _ _ _ _ hall (.object rfl .nil)).then_read fun _ _ rest hes =>
              .read rest hes
      · simp only [metInValue] at hall ⊢
        exact readScalar_corresponds hall
    case items =>
      intro depth cs hall
      rw [metInItems] at hall
      rw [readItems, readItems, metInItems]
      refine Corresponds.bind hall (hvalue depth cs) fun v w rest hmore hvw => ?_
      simp only
      split
      · next hclose =>
        rw [metNext_of_ne (by simp [hclose])]
        exact .read _ (.cons hvw .nil)
      · next hcomma =>
        rw [metNext_of_eq hcomma] at hmore ⊢
        exact (hitems _ _ hmore).then_read fun _ _ rest hvs => .read rest (.cons hvw hvs)
      · next hcomma =>
        rw [metNext_of_ne hcomma]
        exact .stop _
    case entries =>
      intro depth es fs cs hall hes
      rw [readEntries.eq_def, readEntries.eq_def]
      simp only
      split
      · rw [metInEntries] at hall ⊢
        change [] ++ _ ⊆ all at hall
        refine Corresponds.bind hall (fun _ => .of_eq Eq.refl _) fun key _ rest hmore hkey => ?_
        subst hkey
        simp only
        split
        · next hcolon =>
          rw [metNext_of_eq hcolon] at hmore ⊢
          refine Corresponds.bind hmore (hvalue _ _) fun v w rest hmore hvw => ?_
          have hinsert := hes.insert (.text (String.ofList key)) hvw
          simp only
          split
          · next hclose =>
            rw [metNext_of_ne (by simp [hclose])]
            exact .read _ hinsert
          · next hcomma =>
            rw [metNext_of_eq hcomma] at hmore ⊢
            exact hentries _ _ _ _ hmore hinsert
          · next hcomma =>
            rw [metNext_of_ne hcomma]
            exact .stop _
        · next hcolon =>
          rw [metNext_of_ne hcolon]
          exact .stop _
      · simp only [metInEntries]
        exact .stop _

theorem parseChars_eq_ok {r : Reading} {cs : List Char} {v : Value} (h : parseChars r cs = .ok v) :
    ∃ rest, readValue r (2 * cs.length + 2) depthLimit (skip cs) = .ok (v, rest) := by
  unfold parseChars at h
  split at h
  · cases h
  · split at h
    · cases h
      exact ⟨_, ‹_›⟩
    · cases h

/-- A document is read in both ways alike, unless a numeral that is met is out of range. -/
theorem parseBytes_corresponds (bytes : Text.Bytes) :
    InRange (met bytes) ∧
        Except.Mirrors Eq (RereadFrom (met bytes)) (parseBytes .nearest bytes) (parseBytes .exact bytes) ∨
      (∃ n ∈ met bytes, n.toDecimal.inRange = false) ∧ parseBytes .exact bytes = .error .outOfRange := by
  unfold met parseBytes
  rcases Text.decodeDetected bytes with f | cs
  · exact .inl ⟨nofun, .error rfl⟩
  · simp only [parseChars]
    have hread := (read_corresponds _ (2 * cs.length + 2)).1 depthLimit (skip cs) (List.Subset.refl _)
    generalize readValue .nearest (2 * cs.length + 2) depthLimit (skip cs) = x at hread ⊢
    generalize readValue .exact (2 * cs.length + 2) depthLimit (skip cs) = y at hread ⊢
    cases hread with
    | error e hns => exact .inl ⟨hns, .error rfl⟩
    | range x hn hrange => exact .inr ⟨⟨_, hn, hrange⟩, rfl⟩
    | ok rest hns hvw =>
      refine .inl ⟨hns, ?_⟩
      simp only
      split
      · exact .ok hvw
      · exact .error rfl

/-- A text that breaks off. -/
example : (met (Text.utf8 "[1, 2.50, 3e1")).map Numeral.toDecimal = [⟨false, 250, -2⟩, ⟨false, 3, 1⟩] := by
  decide +kernel

/-- A document that is read in both ways gives corresponding values. -/
theorem parseBytes_reread {bytes : Text.Bytes} {v w : Value}
    (hv : parseBytes .nearest bytes = .ok v) (hw : parseBytes .exact bytes = .ok w) :
    Reread v w := by
  rcases parseBytes_corresponds bytes with ⟨-, hmirrors⟩ | ⟨-, hrange⟩
  · rw [hv, hw] at hmirrors
    cases hmirrors with
    | ok hvw => exact hvw.reread
  · rw [hw] at hrange
    cases hrange

end Reshape.Json
