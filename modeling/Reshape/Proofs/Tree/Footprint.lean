import Reshape.Proofs.Tree.Demand

/-! What a run reads of a document. The nodes that a run extracts ask for the representations that
they declare, each is built by the first call of its builder, and nothing else of the document is
looked at. So two documents with the same answers to these calls give the same run, even if they
differ for all other representations. -/

namespace Reshape

namespace Cache

theorem answer_eq (raw : Text.Bytes) (name : String) (rs : List Representation) :
    answer raw name rs =
      answerOf raw name ((rs.find? fun x => x.name == name).map Slot.empty) := by
  induction rs with
  | nil => rfl
  | cons x rest ih =>
    by_cases hn : x.name = name
    · simp only [answer, hn, if_true, List.find?_cons, beq_self_eq_true, Option.map_some, answerOf]
      cases hb : x.build 0 raw with
      | ok v => rw [fill_of_ok (s := Slot.empty x) rfl hb]; rfl
      | error f => rw [fill_of_error (s := Slot.empty x) rfl hb, ← hn]; rfl
    · simp only [answer, hn, if_false, List.find?_cons, beq_false_of_ne hn, ih]

end Cache

namespace Tree

variable {raw raw' : Text.Bytes} {rs : List Representation} {s t : Session}

/-! ### Requests -/

/-- While all that was asked for could be built, every request is answered as the first one. -/
theorem Frugal.fst_get (h : Frugal raw rs s) (hs : Buildable raw rs s.started) (name : String) :
    (s.cache.get name).1 = Cache.answer raw name rs := by
  rw [Cache.fst_get, h.bytes, h.slots, Cache.answer_eq]
  cases hx : rs.find? fun x => x.name == name with
  | none => rfl
  | some x => exact congrArg Prod.fst (fill_slotOnce (hs name x hx))

theorem Frugal.extraction (h : Frugal raw rs s) (hs : Buildable raw rs s.started) (n : Node) :
    extraction n s = extractAnew raw rs n.strategy := by
  rw [Tree.extraction, extractFrom_eq, extractAnew]
  cases n.strategy.representation with
  | none => rfl
  | some name => simp only [h.fst_get hs]

/-! ### Runs on two documents -/

/-- Sessions of two documents, before anything has failed. -/
structure InStep (raw raw' : Text.Bytes) (rs : List Representation) (s t : Session) : Prop where
  left : Frugal raw rs s
  right : Frugal raw' rs t
  builtLeft : Buildable raw rs s.started
  builtRight : Buildable raw' rs t.started
  polls : t.polls = s.polls
  started : t.started = s.started

/-- Sessions that have asked the token as often and extracted the same nodes. -/
def SameTrace (s t : Session) : Prop := t.polls = s.polls ∧ t.started = s.started

theorem InStep.poll (h : InStep raw raw' rs s t) (token : Option CancelToken) :
    (poll token s).1 = (poll token t).1 ∧
      InStep raw raw' rs (poll token s).2 (poll token t).2 := by
  obtain ⟨hanswer, hpolls⟩ := poll_congr token h.polls
  refine ⟨hanswer, h.left.poll token, h.right.poll token, ?_, ?_, hpolls, ?_⟩
  · rw [poll_started]; exact h.builtLeft
  · rw [poll_started]; exact h.builtRight
  · rw [poll_started, poll_started, h.started]

/-- A node that reads a representation with the same answer for both documents, or none, makes the
same step on both. -/
theorem carries_inStep {n : Node}
    (h : ∀ name, n.strategy.representation = some name →
      Cache.answer raw' name rs = Cache.answer raw name rs) :
    Carries (InStep raw raw' rs) SameTrace n := by
  have hanew : extractAnew raw' rs n.strategy = extractAnew raw rs n.strategy := by
    rw [extractAnew, extractAnew]
    cases hr : n.strategy.representation with
    | none => rfl
    | some name => simp only [h name hr]
  have hsame : ∀ {s t}, InStep raw raw' rs s t → extraction n s = extraction n t := fun hst => by
    rw [hst.left.extraction hst.builtLeft, hst.right.extraction hst.builtRight, hanew]
  have htrace : ∀ {s t}, InStep raw raw' rs s t → SameTrace (after n s) (after n t) :=
    fun hst => ⟨hst.polls, by simp only [after, hst.started]⟩
  -- a step that succeeds has built what it read, in both sessions
  refine ⟨hsame, htrace, fun {s t e} hst he => ?_⟩
  have he' : extraction n t = .ok e := (hsame hst).symm.trans he
  obtain ⟨hpolls, hstarted⟩ := htrace hst
  exact ⟨hst.left.after hst.builtLeft n, hst.right.after hst.builtRight n,
    hst.left.builds hst.builtLeft he, hst.right.builds hst.builtRight he', hpolls, hstarted⟩

/-- A run depends on the document only by the first answers of the representations that the nodes
extracted by it declare. Nothing is assumed of the nodes that the run on the other document would
extract. -/
theorem freshRun_footprint (raw raw' : Text.Bytes) (rs : List Representation)
    (token : Option CancelToken) (root : Node)
    (h : ∀ n ∈ (freshRun raw rs token root).2.started, ∀ name,
      n.strategy.representation = some name →
        Cache.answer raw' name rs = Cache.answer raw name rs) :
    (freshRun raw' rs token root).1 = (freshRun raw rs token root).1 ∧
      (freshRun raw' rs token root).2.polls = (freshRun raw rs token root).2.polls ∧
      (freshRun raw' rs token root).2.started = (freshRun raw rs token root).2.started := by
  obtain ⟨l, hl, -⟩ := started_bind token root (.ofCache (.ofDocument raw rs))
  have hl' : (freshRun raw rs token root).2.started = l := hl
  rw [hl'] at h
  have hnew : InStep raw raw' rs (.ofCache (.ofDocument raw rs)) (.ofCache (.ofDocument raw' rs)) :=
    ⟨frugal_ofDocument raw rs, frugal_ofDocument raw' rs, buildable_nil raw rs,
      buildable_nil raw' rs, rfl, rfl⟩
  have hpaired := bind_paired token (fun h => ⟨h.polls, h.started⟩) (fun h => h.poll token) hl
    (fun n hn => carries_inStep (h n hn)) hnew
  exact ⟨hpaired.outcome, hpaired.ends⟩

/-- The node that reads JSON stands below one without a match, so a text that is no JSON gives the
same run as long as it has the same length. -/
theorem freshRun_footprint_skipped :
    let size := Node.mk "$.size" ⟨"size", "", some "bytes", .custom fun v => .ok (v, true)⟩ .leaf
    let first := Node.mk "$.none[0]" ⟨"pointer", "/0", some "json", .pointer ⟨["0"]⟩⟩ .leaf
    let skipped := Node.mk "$.none" .absent (.indexed [some first])
    let root := Node.mk "$" .mapping (.named [(.text "size", size), (.text "none", skipped)])
    let bytes : Representation := ⟨"bytes", fun _ bs => .ok (.number (.int bs.length))⟩
    let rs := [bytes, .json]
    let raw := Text.utf8 "[7]"
    let raw' := Text.utf8 "[7\x7d"
    (∀ n ∈ (freshRun raw rs none root).2.started, ∀ name,
        n.strategy.representation = some name →
          Cache.answer raw' name rs = Cache.answer raw name rs) ∧
      (Cache.answer raw "json" rs).isOk = true ∧ (Cache.answer raw' "json" rs).isOk = false ∧
      (freshRun raw' rs none root).1 = (freshRun raw rs none root).1 := by
  intro size first skipped root bytes rs raw raw'
  have hstarted : (freshRun raw rs none root).2.started = [root, size, skipped] := rfl
  have hsame : ∀ n ∈ (freshRun raw rs none root).2.started, ∀ name,
      n.strategy.representation = some name →
        Cache.answer raw' name rs = Cache.answer raw name rs := by
    rw [hstarted]
    simp only [List.forall_mem_cons]
    refine ⟨nofun, ?_, nofun, nofun⟩
    rintro name ⟨⟩
    have hlength : raw.length = 3 := rfl
    have hlength' : raw'.length = 3 := rfl
    simp [Cache.answer, rs, bytes, hlength, hlength']
  exact ⟨hsame, rfl, rfl, (freshRun_footprint raw raw' rs none root hsame).1⟩

end Tree

end Reshape
