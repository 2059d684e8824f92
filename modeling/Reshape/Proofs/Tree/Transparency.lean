import Reshape.Proofs.Cache.Slots
import Reshape.Proofs.Tree.Runs

/-! Runs on used caches. Whatever a cache of a document has been used for before, successful or not,
a run on it gives the outcome of a run on a fresh one, asks the token as often, and extracts the same
nodes; it only fills slots that were empty. -/

namespace Reshape

/-- What a cache can be used for. -/
inductive Use
  | get (name : String)
  | ensure (name : String)
  | isBuilt (name : String)
  | bind (token : Option CancelToken) (n : Node)

/-- The cache after a use. -/
def Use.on : Use → Cache → Cache
  | .get name, c => (c.get name).2
  | .ensure name, c => (c.ensure name).2
  | .isBuilt _, c => c
  | .bind token n, c => (Tree.bind token n (.ofCache c)).2.cache

namespace Tree

/-! ### Slots during a run -/

theorem later_extractFrom (c : Cache) (strategy : Strategy) :
    c.Later (extractFrom c strategy).2 := by
  rw [extractFrom_eq]
  cases strategy.representation with
  | none => exact .refl c
  | some name => exact c.later_get name

/-- A run only fills empty slots. -/
theorem later_bind (token : Option CancelToken) (n : Node) (s : Session) :
    s.cache.Later (bind token n s).2.cache := by
  refine bind_rel token (R := fun s t => s.cache.Later t.cache) (fun s => .refl s.cache)
    (fun h h' => h.trans h') ?_ n ?_ s
  · intro s
    rw [poll_cache]
    exact .refl s.cache
  · intro m _ s
    exact later_extractFrom s.cache m.strategy

/-! ### Sound caches -/

variable {raw : Text.Bytes} {rs : List Representation}

/-- What a strategy extracts from a document that is read anew. -/
def extractAnew (raw : Text.Bytes) (rs : List Representation) (strategy : Strategy) :
    Outcome Extraction :=
  match strategy.representation with
  | none => strategy.extract .null
  | some name => (Cache.answer raw name rs).bind strategy.extract

theorem extractFrom_sound {c : Cache} (h : c.Sound raw rs) (strategy : Strategy) :
    (extractFrom c strategy).1 = extractAnew raw rs strategy ∧
      (extractFrom c strategy).2.Sound raw rs := by
  rw [extractFrom_eq, extractAnew]
  cases strategy.representation with
  | none => exact ⟨rfl, h⟩
  | some name =>
    obtain ⟨ha, hs⟩ := h.get name
    exact ⟨congrArg (·.bind strategy.extract) ha, hs⟩

/-- Two sessions of one document that differ in what their caches hold. -/
structure Alike (raw : Text.Bytes) (rs : List Representation) (s t : Session) : Prop where
  left : s.cache.Sound raw rs
  right : t.cache.Sound raw rs
  polls : s.polls = t.polls
  started : s.started = t.started

theorem Alike.poll {s t : Session} (h : Alike raw rs s t) (token : Option CancelToken) :
    (poll token s).1 = (poll token t).1 ∧ Alike raw rs (poll token s).2 (poll token t).2 := by
  obtain ⟨hanswer, hpolls⟩ := poll_congr token h.polls.symm
  refine ⟨hanswer, ?_, ?_, hpolls.symm, ?_⟩
  · rw [poll_cache]; exact h.left
  · rw [poll_cache]; exact h.right
  · rw [poll_started, poll_started, h.started]

theorem Alike.after {s t : Session} (h : Alike raw rs s t) (n : Node) :
    extraction n s = extraction n t ∧ Alike raw rs (after n s) (after n t) := by
  obtain ⟨hs, hs'⟩ := extractFrom_sound h.left n.strategy
  obtain ⟨ht, ht'⟩ := extractFrom_sound h.right n.strategy
  exact ⟨hs.trans ht.symm, hs', ht', h.polls, by simp only [Tree.after, h.started]⟩

/-- Alike sessions make the same run. -/
theorem bind_alike (token : Option CancelToken) (n : Node) {s t : Session} (h : Alike raw rs s t) :
    (bind token n s).1 = (bind token n t).1 ∧ Alike raw rs (bind token n s).2 (bind token n t).2 := by
  obtain ⟨l, hl, -⟩ := started_bind token n s
  exact bind_sim token (fun h => h.poll token) hl (fun m _ _ _ h => h.after m) h

/-! ### New caches -/

/-- A run on a new cache of a document. -/
def freshRun (raw : Text.Bytes) (rs : List Representation) (token : Option CancelToken)
    (root : Node) : Outcome Extraction × Session :=
  bind token root (.ofCache (.ofDocument raw rs))

/-- Without a token, a run on any sound cache gives what it gives on a new one. -/
theorem bind_sound (hrs : ∀ r ∈ rs, r.Steady raw) {s : Session} (h : s.cache.Sound raw rs)
    (n : Node) : (bind none n s).1 = (freshRun raw rs none n).1 ∧
      (bind none n s).2.cache.Sound raw rs := by
  obtain ⟨l, hl, -⟩ := started_bind none n s
  obtain ⟨hr, hs, -⟩ := bind_sim none
    (R := fun s t => s.cache.Sound raw rs ∧ t.cache.Sound raw rs)
    (fun h => ⟨rfl, h⟩) hl
    (fun m _ s t hst => by
      obtain ⟨hs, hs'⟩ := extractFrom_sound hst.1 m.strategy
      obtain ⟨ht, ht'⟩ := extractFrom_sound hst.2 m.strategy
      exact ⟨hs.trans ht.symm, hs', ht'⟩)
    (t := .ofCache (.ofDocument raw rs)) ⟨h, Cache.sound_ofDocument hrs⟩
  exact ⟨hr, hs⟩

/-! ### Used caches -/

theorem steady_default (raw : Text.Bytes) : ∀ r ∈ Registry.default.representations, r.Steady raw := by
  intro r hr
  simp only [Registry.default, List.mem_cons, List.not_mem_nil, or_false] at hr
  rcases hr with rfl | rfl <;> exact fun _ _ => rfl

theorem sound_on {c : Cache} (h : c.Sound raw rs) (u : Use) : (u.on c).Sound raw rs := by
  cases u with
  | get name => exact (h.get name).2
  | ensure name => exact (h.get name).2
  | isBuilt name => exact h
  | bind token n => exact (bind_alike token n ⟨h, h, rfl, rfl⟩).2.left

theorem sound_uses {c : Cache} (h : c.Sound raw rs) (uses : List Use) :
    (uses.foldl (fun c u => u.on c) c).Sound raw rs := by
  induction uses generalizing c with
  | nil => exact h
  | cons u rest ih => exact ih (sound_on h u)

/-- A run does not depend on what the cache was used for before. -/
theorem bind_after_uses (h : ∀ r ∈ rs, r.Steady raw) (uses : List Use) (token : Option CancelToken)
    (n : Node) :
    let fresh := Cache.ofDocument raw rs
    let used := uses.foldl (fun c u => u.on c) fresh
    (bind token n (.ofCache used)).1 = (bind token n (.ofCache fresh)).1 ∧
      (bind token n (.ofCache used)).2.polls = (bind token n (.ofCache fresh)).2.polls ∧
      (bind token n (.ofCache used)).2.started = (bind token n (.ofCache fresh)).2.started ∧
      used.Later (bind token n (.ofCache used)).2.cache := by
  intro fresh used
  have hfresh : fresh.Sound raw rs := Cache.sound_ofDocument h
  have hused : used.Sound raw rs := sound_uses hfresh uses
  obtain ⟨hr, ha⟩ := bind_alike token n (s := .ofCache used) (t := .ofCache fresh)
    ⟨hused, hfresh, rfl, rfl⟩
  exact ⟨hr, ha.polls, ha.started, later_bind token n (.ofCache used)⟩

/-- A cancelled run and a request for an unknown representation change nothing for a later run. -/
theorem bind_after_cancelled :
    let raw := Text.utf8 "[7]"
    let fresh := Cache.ofDocument raw Registry.default.representations
    let root := Node.mk "$" ⟨"pointer", "/0", some "json", .pointer ⟨["0"]⟩⟩ .leaf
    let uses := [Use.bind (some fun _ => true) root, .ensure "yaml", .get "json"]
    let used := uses.foldl (fun c u => u.on c) fresh
    (∀ r ∈ Registry.default.representations, r.Steady raw) ∧
      (bind none root (.ofCache used)).1 = (bind none root (.ofCache fresh)).1 := by
  intro raw fresh root uses used
  exact ⟨steady_default raw, (bind_after_uses (steady_default raw) uses none root).1⟩

end Tree

end Reshape
