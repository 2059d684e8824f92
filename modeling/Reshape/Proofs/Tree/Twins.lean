import Reshape.Proofs.Tree.Compiled
import Reshape.Proofs.Tree.Reached
import Reshape.Proofs.Value.Alike

/-! What a node gives. Without a token, and with builders that are functions of the document, a node
writes into what it extracts what its children give, each on a new cache; so children cannot tell
whether others were bound before them. Nodes with one strategy, whose children give the same in
another order, give the same but for the order of keys. -/

namespace Reshape

/-- Values that are equal but for the order of keys, both found or both not. -/
def Extraction.Alike (a b : Extraction) : Prop := a.1.Alike b.1 ∧ a.2 = b.2

theorem Extraction.Alike.refl (a : Extraction) : a.Alike a := ⟨.same a.1, rfl⟩

namespace Tree

/-! ### Results of children -/

section Results

variable {raw : Text.Bytes} {rs : List Representation}

/-- What is written of the results of children. -/
def kept (ys : List (Branch × Extraction)) : List (Branch × Value) :=
  ys.filterMap fun y => if y.2.2 then some (y.1, y.2.1) else none

/-- What the children of a node give, each on a new cache. -/
def childResults (raw : Text.Bytes) (rs : List Representation) (l : List (Branch × Node)) :
    Outcome (List (Branch × Extraction)) :=
  l.mapM fun x => (freshRun raw rs none x.2).1.map (x.1, ·)

theorem childResults_cons (x : Branch × Node) (l : List (Branch × Node)) :
    childResults raw rs (x :: l) =
      ((freshRun raw rs none x.2).1 >>= fun r =>
        (childResults raw rs l).map fun ys => (x.1, r) :: ys) := by
  rw [childResults, List.mapM_cons]
  cases (freshRun raw rs none x.2).1 <;> rfl

/-- Children cannot tell whether others were bound before them. -/
theorem gather_sound (hrs : ∀ x ∈ rs, x.Steady raw) (l : List (Branch × Node)) {s : Session}
    (h : s.cache.Sound raw rs) :
    (gather none l s).1 = (childResults raw rs l).map kept := by
  induction l generalizing s with
  | nil => rfl
  | cons x rest ih =>
    obtain ⟨hr, hs⟩ := bind_sound hrs h x.2
    rw [childResults_cons, ← hr, gather]
    rcases hb : bind none x.2 s with ⟨f | ⟨v, bound⟩, t⟩
    · rfl
    · rw [hb] at hs
      have ih := ih hs
      simp only [Except.ok_bind]
      rcases hg : gather none rest t with ⟨f | xs, u⟩ <;> rw [hg] at ih <;>
        rcases hc : childResults raw rs rest with g | ys <;>
        simp only [hc, Except.map, reduceCtorEq, Except.error.injEq, Except.ok.injEq] at ih ⊢
      · exact ih
      · subst ih
        cases bound <;> simp [kept]

/-- A node writes what its children give into what it extracts. -/
theorem freshRun_eq (hrs : ∀ x ∈ rs, x.Steady raw) (n : Node) :
    (freshRun raw rs none n).1 =
      ((stepAnew raw rs n).mapError (·.locate n.path) >>= fun e =>
        (childResults raw rs (below n e)).map fun ys =>
          (e.1.write (kept ys), e.2 || !(kept ys).isEmpty)) := by
  have hfresh : (Session.ofCache (.ofDocument raw rs)).cache.Sound raw rs :=
    Cache.sound_ofDocument hrs
  have hafter := (extractFrom_sound hfresh n.strategy).2
  rw [freshRun, bind_eq]
  simp only [poll, ownStep_sound hfresh n]
  cases stepAnew raw rs n with
  | error f => rfl
  | ok e =>
    simp only [fst_finish, Except.mapError, Except.ok_bind]
    rw [gather_sound hrs (below n e) (s := after n _) hafter, Except.map_map]

end Results

/-! ### Nodes that give the same -/

/-- Nodes that, on every document, both fail or give results that are alike. -/
def Equivalent (n m : Node) : Prop :=
  ∀ raw rs, (∀ x ∈ rs, x.Steady raw) →
    Except.Agrees Extraction.Alike (freshRun raw rs none n).1 (freshRun raw rs none m).1

theorem Equivalent.refl (n : Node) : Equivalent n n :=
  fun _ _ _ => .of_eq Extraction.Alike.refl

/-- Nodes with one strategy, whose children are equivalent and may stand in another order. -/
structure Twins (n m : Node) : Prop where
  strategy : n.strategy = m.strategy
  fits : ∀ v, fits n.children v = fits m.children v
  left : (n.children.filled.map Prod.fst).Nodup
  right : (m.children.filled.map Prod.fst).Nodup
  matched : Matched (fun x y => x.1 = y.1 ∧ Equivalent x.2 y.2) n.children.filled m.children.filled

theorem map_fst_childResults {raw : Text.Bytes} {rs : List Representation}
    {l : List (Branch × Node)} {ys : List (Branch × Extraction)}
    (h : childResults raw rs l = .ok ys) : l.map Prod.fst = ys.map Prod.fst := by
  refine map_fst_eq (fun x y hxy => ?_) (Except.mapM_eq_ok.mp h)
  cases hr : (freshRun raw rs none x.2).1 with
  | error f => simp [hr, Except.map] at hxy
  | ok r =>
    obtain rfl : (x.1, r) = y := by simpa [hr, Except.map] using hxy
    rfl

/-- What is left of a list stands on different branches if the list did. -/
theorem nodup_filterMap {α β : Type} {f : Branch × α → Option (Branch × β)}
    (hf : ∀ x y, f x = some y → y.1 = x.1) {l : List (Branch × α)} (h : (l.map Prod.fst).Nodup) :
    ((l.filterMap f).map Prod.fst).Nodup := by
  refine h.sublist ?_
  clear h
  induction l with
  | nil => exact .slnil
  | cons x rest ih =>
    cases hx : f x with
    | none =>
      rw [List.filterMap_cons_none hx]
      exact ih.cons x.1
    | some y =>
      rw [List.filterMap_cons_some hx, List.map_cons, List.map_cons, hf x y hx]
      exact ih.cons_cons x.1

theorem nodup_kept {ys : List (Branch × Extraction)} (h : (ys.map Prod.fst).Nodup) :
    ((kept ys).map Prod.fst).Nodup := by
  refine nodup_filterMap (fun x y hxy => ?_) h
  split_ifs at hxy
  rw [← Option.some.inj hxy]

theorem nodup_below {n : Node} (h : (n.children.filled.map Prod.fst).Nodup) (e : Extraction) :
    ((below n e).map Prod.fst).Nodup := by
  unfold below
  split
  · exact h
  · exact .nil

theorem Twins.matched_below {n m : Node} (h : Twins n m) (e : Extraction) :
    Matched (fun x y => x.1 = y.1 ∧ Equivalent x.2 y.2) (below n e) (below m e) := by
  unfold below
  split
  · exact h.matched
  · exact ⟨by simp, by simp⟩

/-- Results that match are written into the same value. -/
theorem write_kept {ys zs : List (Branch × Extraction)} (hy : (ys.map Prod.fst).Nodup)
    (hz : (zs.map Prod.fst).Nodup) (h : Matched (fun y z => y.1 = z.1 ∧ y.2.Alike z.2) ys zs)
    (e : Extraction) :
    Extraction.Alike (e.1.write (kept ys), e.2 || !(kept ys).isEmpty)
      (e.1.write (kept zs), e.2 || !(kept zs).isEmpty) := by
  have hkept : Matched (fun x y => x.1 = y.1 ∧ x.2.Alike y.2) (kept ys) (kept zs) := by
    refine h.filterMap ?_
    rintro ⟨b, v, p⟩ ⟨_, w, _⟩ ⟨rfl, hvw, rfl⟩
    cases p with
    | false => exact .none
    | true => exact .some ⟨rfl, hvw⟩
  refine ⟨Value.Rewritten.write ⟨nodup_kept hy, nodup_kept hz, hkept⟩ e.1, ?_⟩
  have hempty : (kept ys).isEmpty = (kept zs).isEmpty := by
    rw [Bool.eq_iff_iff, List.isEmpty_iff, List.isEmpty_iff]
    exact hkept.nil_iff
  rw [hempty]

theorem Twins.equivalent {n m : Node} (h : Twins n m) : Equivalent n m := by
  intro raw rs hrs
  have hstep : stepAnew raw rs n = stepAnew raw rs m := by
    simp only [stepAnew, h.strategy, h.fits]
  rw [freshRun_eq hrs, freshRun_eq hrs, hstep]
  cases stepAnew raw rs m with
  | error f => exact .error _ _
  | ok e =>
    have hchildren : Except.Agrees (Matched fun y z => y.1 = z.1 ∧ y.2.Alike z.2)
        (childResults raw rs (below n e)) (childResults raw rs (below m e)) := by
      refine Except.mapM_matched ((h.matched_below e).imp fun x _ y _ hxy => ?_)
      exact (hxy.2 raw rs hrs).map fun _ _ _ _ hr => ⟨hxy.1, hr⟩
    refine hchildren.map fun ys zs hy hz hyz => write_kept ?_ ?_ hyz e
    · exact map_fst_childResults hy ▸ nodup_below h.left e
    · exact map_fst_childResults hz ▸ nodup_below h.right e

end Tree

end Reshape
