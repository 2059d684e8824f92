import Reshape.Proofs.Cache.Histories
import Reshape.Proofs.Registry
import Reshape.Proofs.Tree.Transparency

/-! Which representations a run builds. A run asks for the representations of the nodes that it
extracts, and stops at the first one that cannot be built; so each builder is called once if one of
these nodes reads its representation, and not at all otherwise. What the other builders would answer
makes no difference. -/

namespace Reshape.Tree

/-- Some of the nodes read the representation. -/
def demands (ns : List Node) (name : String) : Bool :=
  ns.any fun n => n.strategy.representation == some name

theorem demands_iff {ns : List Node} {name : String} :
    demands ns name = true ↔ ∃ n ∈ ns, n.strategy.representation = some name := by
  simp [demands]

theorem demands_snoc (ns : List Node) (n : Node) (name : String) :
    demands (ns ++ [n]) name = (demands ns name || n.strategy.representation == some name) := by
  simp [demands]

/-! ### Calls of the builders -/

/-- The slot of a representation that was asked for once, or not at all. -/
def slotOnce (raw : Text.Bytes) (asked : Bool) (x : Representation) : Slot :=
  if asked then (Cache.fill raw (Cache.Slot.empty x)).2 else Cache.Slot.empty x

/-- Representations were asked for once at most: those that the started nodes read. -/
structure Frugal (raw : Text.Bytes) (rs : List Representation) (s : Session) : Prop where
  bytes : s.cache.raw = raw
  slots : ∀ name, s.cache.slot? name =
    (rs.find? fun x => x.name == name).map (slotOnce raw (demands s.started name))

/-- All representations that these nodes read can be built. -/
def Buildable (raw : Text.Bytes) (rs : List Representation) (ns : List Node) : Prop :=
  ∀ name x, (rs.find? fun x => x.name == name) = some x → demands ns name = true →
    ∃ v, x.build 0 raw = .ok v

variable {raw : Text.Bytes} {rs : List Representation} {s : Session}

theorem frugal_ofDocument (raw : Text.Bytes) (rs : List Representation) :
    Frugal raw rs (.ofCache (.ofDocument raw rs)) := by
  refine ⟨rfl, fun name => ?_⟩
  simp only [Session.ofCache, Cache.ofDocument, Cache.slot?, List.find?_map, demands, List.any_nil]
  rfl

theorem buildable_nil (raw : Text.Bytes) (rs : List Representation) : Buildable raw rs [] :=
  fun _ _ _ h => by simp [demands] at h

/-- A slot that was filled before gives again what it gave the first time. -/
theorem fill_slotOnce {x : Representation} {asked : Bool}
    (h : asked = true → ∃ v, x.build 0 raw = .ok v) :
    Cache.fill raw (slotOnce raw asked x) = Cache.fill raw (Cache.Slot.empty x) := by
  cases asked with
  | false => rfl
  | true =>
    obtain ⟨v, hv⟩ := h rfl
    have hfill := Cache.fill_of_ok (s := Cache.Slot.empty x) rfl hv
    simp only [slotOnce, if_true, hfill]
    rw [Cache.fill_of_content rfl]

theorem build_of_fill {x : Representation} {v : Value}
    (hv : (Cache.fill raw (Cache.Slot.empty x)).1 = .ok v) : ∃ v, x.build 0 raw = .ok v := by
  cases hb : x.build 0 raw with
  | ok w => exact ⟨w, rfl⟩
  | error f =>
    have hfill := Cache.fill_of_error (s := Cache.Slot.empty x) rfl hb
    simp [hfill] at hv

/-- The step of a node fills the slot that the node reads, and no other. -/
theorem slot?_after (n : Node) (s : Session) (name : String) :
    (after n s).cache.slot? name =
      if n.strategy.representation = some name then
        (s.cache.slot? name).map fun t => (Cache.fill s.cache.raw t).2
      else s.cache.slot? name := by
  cases hr : n.strategy.representation with
  | none => simp [after, extractFrom_eq, hr]
  | some asked => simp [after, extractFrom_eq, hr, Cache.slot?_get]

/-- A node that extracts has got the representation that it reads. -/
theorem get_of_extraction {n : Node} {e : Extraction} {name : String}
    (he : extraction n s = .ok e) (hr : n.strategy.representation = some name) :
    ∃ v, (s.cache.get name).1 = .ok v := by
  rw [extraction, extractFrom_eq, hr] at he
  cases hg : (s.cache.get name).1 with
  | ok v => exact ⟨v, rfl⟩
  | error f => simp [hg, Except.bind] at he

theorem Frugal.after (h : Frugal raw rs s) (hs : Buildable raw rs s.started) (n : Node) :
    Frugal raw rs (after n s) := by
  refine ⟨(later_extractFrom s.cache n.strategy).raw.trans h.bytes, fun name => ?_⟩
  rw [slot?_after, h.slots, h.bytes, Tree.after, demands_snoc]
  by_cases hn : n.strategy.representation = some name
  · cases hx : rs.find? fun x => x.name == name with
    | none => simp
    | some x =>
      rw [if_pos hn, Option.map_some, Option.map_some, Option.map_some,
        fill_slotOnce (hs name x hx)]
      simp [hn, slotOnce]
  · rw [if_neg hn, beq_false_of_ne hn, Bool.or_false]

/-- If the step of a node succeeds, the representation that the node reads could be built. -/
theorem Frugal.builds (h : Frugal raw rs s) (hs : Buildable raw rs s.started) {n : Node}
    {e : Extraction} (he : extraction n s = .ok e) :
    Buildable raw rs (Tree.after n s).started := by
  intro name x hx ha
  by_cases hn : n.strategy.representation = some name
  · obtain ⟨v, hv⟩ := get_of_extraction he hn
    rw [Cache.fst_get, h.slots, hx, h.bytes] at hv
    exact build_of_fill ((congrArg Prod.fst (fill_slotOnce (hs name x hx))).symm.trans hv)
  · rw [Tree.after, demands_snoc, beq_false_of_ne hn, Bool.or_false] at ha
    exact hs name x hx ha

theorem Frugal.poll (h : Frugal raw rs s) (token : Option CancelToken) :
    Frugal raw rs (poll token s).2 :=
  ⟨by rw [poll_cache]; exact h.bytes, by rw [poll_cache, poll_started]; exact h.slots⟩

/-- A run asks for each representation once at most. If it returns, all that it asked for were
built. -/
theorem bind_frugal (token : Option CancelToken) (n : Node) (h : Frugal raw rs s)
    (hs : Buildable raw rs s.started) :
    Frugal raw rs (bind token n s).2 ∧
      ∀ r, (bind token n s).1 = .ok r → Buildable raw rs (bind token n s).2.started := by
  have hasked : ∀ {s t b}, poll token s = (b, t) → Frugal raw rs s → Buildable raw rs s.started →
      Frugal raw rs t ∧ Buildable raw rs t.started := by
    intro s t b hp h hs
    have ht := h.poll token
    rw [hp] at ht
    exact ⟨ht, (kept_of_poll token hp).2 ▸ hs⟩
  refine (run_induction token
    (P := fun n s o => Frugal raw rs s → Buildable raw rs s.started →
      Frugal raw rs o.2 ∧ ∀ r, o.1 = .ok r → Buildable raw rs o.2.started)
    (Q := fun l s o => Frugal raw rs s → Buildable raw rs s.started →
      Frugal raw rs o.2 ∧ ∀ r, o.1 = .ok r → Buildable raw rs o.2.started)
    ?cancelled ?faulty ?stepped ?nil ?failed ?stopped ?gathered).1 n s h hs
  case cancelled => exact fun n s t hp h hs => ⟨(hasked hp h hs).1, by simp⟩
  case faulty =>
    intro n s t f hp ho h hs
    obtain ⟨ht, hts⟩ := hasked hp h hs
    exact ⟨ht.after hts n, by simp⟩
  case stepped =>
    intro n s t e o hp ho hq h hs
    obtain ⟨ht, hts⟩ := hasked hp h hs
    obtain ⟨hu, hus⟩ := hq (ht.after hts n) (ht.builds hts (ownStep_eq_ok.mp ho).1)
    rw [snd_finish]
    refine ⟨hu, fun r hr => ?_⟩
    rcases o with ⟨f | xs, u⟩
    · simp [finish] at hr
    · exact hus xs rfl
  case nil => exact fun s h hs => ⟨h, fun _ _ => hs⟩
  case failed => exact fun x rest s f t hx h hs => ⟨(hx h hs).1, by simp⟩
  case stopped =>
    intro x rest s r t f u hx hr h hs
    obtain ⟨ht, hts⟩ := hx h hs
    exact ⟨(hr ht (hts r rfl)).1, by simp⟩
  case gathered =>
    intro x rest s r t xs u hx hr h hs
    obtain ⟨ht, hts⟩ := hx h hs
    obtain ⟨hu, hus⟩ := hr ht (hts r rfl)
    exact ⟨hu, fun _ _ => hus xs rfl⟩

/-! ### Other builders -/

/-- Representations with the same names, of which those that the nodes read are the same. -/
def AgreeOn (ns : List Node) (x y : Representation) : Prop :=
  y.name = x.name ∧ (demands ns x.name = true → y = x)

/-- Slots of representations that agree. Only slots that the nodes read have been used. -/
def SlotsAgree (ns : List Node) (a b : Slot) : Prop :=
  b.representation.name = a.representation.name ∧
    (demands ns a.representation.name = true → b = a)

/-- Sessions of one document whose slots agree. -/
structure SessionsAgree (ns : List Node) (s t : Session) : Prop where
  bytes : t.cache.raw = s.cache.raw
  slots : List.Forall₂ (SlotsAgree ns) s.cache.slots t.cache.slots
  polls : t.polls = s.polls
  started : t.started = s.started

theorem request_agree {ns : List Node} {name : String} (h : demands ns name = true)
    {xs ys : List Slot} (hxs : List.Forall₂ (SlotsAgree ns) xs ys) (raw : Text.Bytes) :
    (Cache.request raw name xs).1 = (Cache.request raw name ys).1 ∧
      List.Forall₂ (SlotsAgree ns) (Cache.request raw name xs).2
        (Cache.request raw name ys).2 := by
  induction hxs with
  | nil => exact ⟨rfl, .nil⟩
  | @cons a b xs ys hab hrest ih =>
    by_cases hn : a.representation.name = name
    · obtain rfl := hab.2 (hn ▸ h)
      simp only [Cache.request, hn, if_true, true_and]
      exact .cons ⟨rfl, fun _ => rfl⟩ hrest
    · have hb : b.representation.name ≠ name := hab.1 ▸ hn
      simp only [Cache.request, hn, hb, if_false]
      exact ⟨ih.1, .cons hab ih.2⟩

/-- The nodes that are counted take the same step in both sessions. -/
theorem respects_agree {ns : List Node} {n : Node} (hn : n ∈ ns) : Respects (SessionsAgree ns) n := by
  intro s t h
  cases hr : n.strategy.representation with
  | none =>
    simp only [extraction, after, extractFrom_eq, hr, true_and]
    exact ⟨h.bytes, h.slots, h.polls, by simp only [h.started]⟩
  | some name =>
    obtain ⟨hr', hs⟩ := request_agree (demands_iff.mpr ⟨n, hn, hr⟩) h.slots s.cache.raw
    simp only [extraction, after, extractFrom_eq, hr, Cache.get, h.bytes, hr', true_and]
    exact ⟨rfl, hs, h.polls, by simp only [h.started]⟩

theorem SessionsAgree.poll {ns : List Node} {s t : Session} (h : SessionsAgree ns s t)
    (token : Option CancelToken) :
    (poll token s).1 = (poll token t).1 ∧ SessionsAgree ns (poll token s).2 (poll token t).2 := by
  obtain ⟨hanswer, hpolls⟩ := poll_congr token h.polls
  refine ⟨hanswer, ?_, ?_, hpolls, ?_⟩
  · rw [poll_cache, poll_cache, h.bytes]
  · rw [poll_cache, poll_cache]; exact h.slots
  · rw [poll_started, poll_started, h.started]

theorem agree_ofDocument {ns : List Node} {rs' : List Representation}
    (h : List.Forall₂ (AgreeOn ns) rs rs') :
    SessionsAgree ns (.ofCache (.ofDocument raw rs)) (.ofCache (.ofDocument raw rs')) := by
  refine ⟨rfl, ?_, rfl, rfl⟩
  simp only [Session.ofCache, Cache.ofDocument, List.forall₂_map_left_iff,
    List.forall₂_map_right_iff]
  refine h.imp fun x y hxy => ⟨hxy.1, fun ha => ?_⟩
  rw [hxy.2 ha]

/-! ### Lazy runs -/

variable (raw rs) in
/-- What a run on a new cache asks of the builders. -/
structure Lazy (token : Option CancelToken) (root : Node) : Prop where
  /-- Each builder is called once at most. -/
  once : ∀ name, (freshRun raw rs token root).2.cache.callsOf name ≤ 1
  /-- A builder is called if a node whose extraction has started reads its representation. -/
  called : ∀ x ∈ rs, (freshRun raw rs token root).2.cache.callsOf x.name = 1 ↔
    ∃ n ∈ (freshRun raw rs token root).2.started, n.strategy.representation = some x.name
  /-- A representation is built if that call succeeds. -/
  built : ∀ x ∈ rs, (freshRun raw rs token root).2.cache.isBuilt x.name = true ↔
    (freshRun raw rs token root).2.cache.callsOf x.name = 1 ∧ ∃ v, x.build 0 raw = .ok v
  /-- What the builders of other representations would answer makes no difference, so a document
  that is malformed for them causes no failure. -/
  indifferent : ∀ rs', List.Forall₂ (AgreeOn (freshRun raw rs token root).2.started) rs rs' →
    (freshRun raw rs' token root).1 = (freshRun raw rs token root).1 ∧
      (freshRun raw rs' token root).2.polls = (freshRun raw rs token root).2.polls ∧
      (freshRun raw rs' token root).2.started = (freshRun raw rs token root).2.started

theorem calls_slotOnce (raw : Text.Bytes) (asked : Bool) (x : Representation) :
    (slotOnce raw asked x).calls = if asked then 1 else 0 := by
  cases asked with
  | false => rfl
  | true => exact Cache.calls_fill raw rfl

theorem content_slotOnce (raw : Text.Bytes) (asked : Bool) (x : Representation) :
    (slotOnce raw asked x).content.isSome = true ↔
      asked = true ∧ ∃ v, x.build 0 raw = .ok v := by
  cases asked with
  | false => simp [slotOnce, Cache.Slot.empty]
  | true =>
    cases hb : x.build 0 raw with
    | ok v =>
      have hfill := Cache.fill_of_ok (s := Cache.Slot.empty x) rfl hb
      simp [slotOnce, hfill]
    | error f =>
      have hfill := Cache.fill_of_error (s := Cache.Slot.empty x) rfl hb
      rw [slotOnce, if_pos rfl, hfill]
      simp [Cache.Slot.empty]

/-- Every run on a new cache over the representations of a registry is lazy, whether it returns,
fails or is cancelled. -/
theorem bind_lazy (calls : List Registry.Registration) (raw : Text.Bytes)
    (token : Option CancelToken) (root : Node) :
    Lazy raw (Registry.built calls).representations token root := by
  generalize hrs : (Registry.built calls).representations = rs
  have hdistinct : (rs.map (·.name)).Nodup := hrs ▸ Registry.distinct_built calls
  obtain ⟨hfrugal, -⟩ := bind_frugal token root (frugal_ofDocument raw rs) (buildable_nil raw rs)
  have hover := (Cache.over_ofDocument raw rs).later
    (later_bind token root (.ofCache (.ofDocument raw rs)))
  have hslots := hfrugal.slots
  have hfind : ∀ x ∈ rs, (rs.find? fun y => y.name == x.name) = some x :=
    fun x hx => Cache.find?_of_mem hdistinct hx
  refine ⟨?once, ?called, ?built, ?indifferent⟩
  case once =>
    intro name
    simp only [freshRun, Cache.callsOf, hslots]
    cases rs.find? fun x => x.name == name with
    | none => simp
    | some x =>
      simp only [Option.map_some, Option.getD_some, calls_slotOnce]
      split_ifs <;> omega
  case called =>
    intro x hx
    simp [freshRun, Cache.callsOf, hslots, hfind x hx, calls_slotOnce, demands_iff]
  case built =>
    intro x hx
    rw [freshRun, hover.isBuilt_iff hdistinct]
    simp [Cache.callsOf, hslots, hfind x hx, calls_slotOnce, content_slotOnce]
  case indifferent =>
    intro rs' h
    obtain ⟨l, hl, -⟩ := started_bind token root (.ofCache (.ofDocument raw rs))
    have hl' : (freshRun raw rs token root).2.started = l := hl
    rw [hl'] at h
    obtain ⟨hr, ha⟩ := bind_sim token (fun h => h.poll token) hl
      (fun n hn => respects_agree hn) (agree_ofDocument h)
    exact ⟨hr.symm, ha.polls, ha.started⟩

/-- A pointer reads JSON, so the decimals of the document are not built. -/
example :
    let root := Node.mk "$" ⟨"pointer", "/0", some "json", .pointer ⟨["0"]⟩⟩ .leaf
    let run := freshRun (Text.utf8 "[7]") Registry.default.representations none root
    run.1 = .ok (.number (.int 7), true) ∧ run.2.cache.calls = [("json", 1), ("decimal", 0)] :=
  ⟨rfl, rfl⟩

end Reshape.Tree
