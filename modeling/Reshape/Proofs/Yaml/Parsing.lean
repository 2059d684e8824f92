import Reshape.Proofs.Yaml.Values
import Reshape.Yaml.Node.Parser

/-! From tokens to the tree of nodes. Where tokens make no tree, they do not follow the format, or what
stands behind the last of them cannot be read, or they open too many collections inside of one another.
The nodes of a tree that they make come from them; the tag of a node is that of its form, but in trees
with tags of their own. -/

namespace Reshape.Yaml

/-! ### Nesting -/

def Token.opens (t : Token) : Bool :=
  [.blockSequenceStart, .blockMappingStart, .flowSequenceStart, .flowMappingStart].contains t

def Token.closes (t : Token) : Bool := [.blockEnd, .flowSequenceEnd, .flowMappingEnd].contains t

/-- How many collections tokens open inside of one another, on top of those that are open before
them. -/
def rise : List Token → Nat
  | [] => 0
  | t :: rest => if t.opens then rise rest + 1 else if t.closes then rise rest - 1 else rise rest

theorem rise_cons (t : Token) (rest : List Token) :
    rise (t :: rest) =
      if t.opens then rise rest + 1 else if t.closes then rise rest - 1 else rise rest := rfl

theorem rise_le (t : Token) (rest : List Token) : rise rest ≤ rise (t :: rest) + 1 := by
  rw [rise_cons]
  split_ifs <;> omega

theorem rise_le_of_not_closes {t : Token} (h : t.closes = false) (rest : List Token) :
    rise rest ≤ rise (t :: rest) := by
  rw [rise_cons, if_neg (by simp [h] : ¬t.closes = true)]
  split_ifs <;> omega

/-! ### Trees from tokens -/

/-- What a node is made of: a token, or nothing at all, and the tag that goes with that. -/
inductive Node.Stems (ts : List Token) : Node → Prop
  | plain {s : String} : .scalar s true ∈ ts → Stems ts (.scalar (.ofPlain s) s)
  | quoted {s : String} : .scalar s false ∈ ts → Stems ts (.scalar .text s)
  | empty : Stems ts .empty
  | sequence {items : List Node} : Stems ts (.sequence .sequence items)
  | mapping {es : List (Node × Node)} : Stems ts (.mapping .mapping es)
  | loop : Stems ts .loop
  /-- Some node has a tag of its own. -/
  | tagged {name : TagName} {n : Node} : .tag name ∈ ts → Stems ts n

/-- A tree of nodes that stem from tokens. -/
abbrev Node.Grown (ts : List Token) (n : Node) : Prop := n.All (Stems ts)

theorem Node.grown_empty (ts : List Token) : Node.empty.Grown ts := .scalar .empty

namespace Reader

/-- A reader of some of the tokens, with trees of them under its anchors. -/
structure Sound (ts : List Token) (r : Reader) : Prop where
  tokens : r.tokens <:+ ts
  anchors : ∀ a ∈ r.anchors, a.2.Grown ts

/-- A reader goes on to another one, which leaves at most `k` collections. -/
structure Leads (ts : List Token) (k : Nat) (r r' : Reader) : Prop where
  sound : r'.Sound ts
  fault : r'.fault = r.fault
  rise : rise r'.tokens ≤ rise r.tokens + k

/-- Why a reader fails that goes through `depth` levels of collections. A level may have no token that
opens it, but never two of them in a row. -/
inductive Fails (depth : Nat) (r : Reader) : Fault → Prop
  | malformed : Fails depth r .malformed
  /-- The tokens end. -/
  | ending : Fails depth r r.fault
  | deep : depth ≤ 2 * rise r.tokens → Fails depth r (.crash .tooDeep)

variable {ts : List Token} {r r' r'' : Reader} {depth k : Nat} {f : Fault} {t : Token}

theorem Sound.refl (h : r.Sound ts) : r.Leads ts 0 r := ⟨h, rfl, le_rfl⟩

theorem Leads.trans (h : r.Leads ts 0 r') (h' : r'.Leads ts k r'') : r.Leads ts k r'' :=
  ⟨h'.sound, h'.fault.trans h.fault, h'.rise.trans (Nat.add_le_add_right h.rise k)⟩

theorem Fails.imp {d : Nat} (hfault : r'.fault = r.fault)
    (hdeep : d ≤ 2 * rise r'.tokens → depth ≤ 2 * rise r.tokens) (hf : r'.Fails d f) :
    r.Fails depth f := by
  cases hf with
  | malformed => exact .malformed
  | ending => exact hfault ▸ .ending
  | deep hd => exact .deep (hdeep hd)

theorem Fails.after (h : r.Leads ts 0 r') (hf : r'.Fails depth f) : r.Fails depth f :=
  hf.imp h.fault fun hd => hd.trans (Nat.mul_le_mul_left 2 h.rise)

theorem tokens_of_peek (h : r.peek = .ok t) : r.tokens = t :: r.next.tokens := by
  unfold peek at h
  unfold next
  split at h <;> cases h
  next htokens => rw [htokens, List.tail_cons]

theorem peek_eq_error (h : r.peek = .error f) : f = r.fault := by
  unfold peek at h
  split at h <;> cases h
  rfl

theorem Sound.mem (hr : r.Sound ts) (h : r.peek = .ok t) : t ∈ ts := by
  refine hr.tokens.subset ?_
  rw [tokens_of_peek h]
  exact List.mem_cons_self

theorem Sound.next (h : r.Sound ts) : r.next.Sound ts :=
  ⟨(List.tail_suffix _).trans h.tokens, h.anchors⟩

theorem Sound.leads_next (h : r.Sound ts) (ht : r.peek = .ok t) (hclose : t.closes = false) :
    r.Leads ts 0 r.next := by
  refine ⟨h.next, rfl, ?_⟩
  rw [tokens_of_peek ht]
  exact rise_le_of_not_closes hclose _

theorem Sound.leaves_next (h : r.Sound ts) (ht : r.peek = .ok t) : r.Leads ts 1 r.next := by
  refine ⟨h.next, rfl, ?_⟩
  rw [tokens_of_peek ht]
  exact rise_le t _

theorem rise_next (h : r.peek = .ok t) (ht : t.opens) :
    rise r.tokens = rise r.next.tokens + 1 := by
  rw [tokens_of_peek h, rise_cons, if_pos ht]

end Reader

/-! ### Parsers -/

/-- What is read through `depth` levels is good, and leaves at most `k` collections; or reading
fails. -/
def Parses {α : Type} (ts : List Token) (depth k : Nat) (good : α → Prop) (r : Reader)
    (x : Except Fault (Parsed α)) : Prop :=
  x.Ends (fun a => good a.1 ∧ r.Leads ts k a.2) (r.Fails depth)

namespace Parses

variable {α β : Type} {ts : List Token} {depth k : Nat} {r : Reader} {good : α → Prop}
  {good' : β → Prop} {x : Except Fault (Parsed α)}

theorem malformed : Parses ts depth k good r (.error .malformed) := Reader.Fails.malformed

theorem after {r' : Reader} (h : r.Leads ts 0 r') (hx : Parses ts depth k good r' x) :
    Parses ts depth k good r x :=
  Except.Ends.mono hx (fun _ ha => ⟨ha.1, h.trans ha.2⟩) fun _ hf => hf.after h

theorem bind (hx : Parses ts depth 0 good r x) {f : Parsed α → Except Fault (Parsed β)}
    (hf : ∀ a r', good a → r'.Sound ts → Parses ts depth k good' r' (f (a, r'))) :
    Parses ts depth k good' r (x >>= f) :=
  Except.Ends.bind hx fun a ha => (hf a.1 a.2 ha.1 ha.2.sound).after ha.2

/-- What is read is put together with what was read before. -/
theorem last (hx : Parses ts depth k good r x) {f : Parsed α → Except Fault (Parsed β)}
    (hf : ∀ a r', good a → ∃ b, f (a, r') = .ok (b, r') ∧ good' b) :
    Parses ts depth k good' r (x >>= f) := by
  rcases x with e | ⟨a, r'⟩
  · exact hx
  · obtain ⟨b, hb, hgood⟩ := hf a r' hx.1
    rw [Except.ok_bind, hb]
    exact ⟨hgood, hx.2⟩

/-- What stands behind a token that opens a collection, up to the end of it. -/
theorem inside {t : Token} (h : r.peek = .ok t) (ht : t.opens) {d : Nat} (hd : depth ≤ d + 2)
    (hx : Parses ts d 1 good r.next x) : Parses ts depth 0 good r x := by
  have hrise := Reader.rise_next h ht
  refine Except.Ends.mono hx (fun a ha => ⟨ha.1, ha.2.sound, ha.2.fault, ?_⟩) fun f hf => ?_
  · rw [hrise]
    exact ha.2.rise
  · have hfail : r.next.Fails d f := hf
    exact Reader.Fails.imp (by rfl) (fun hdeep => by omega) hfail

theorem peek {f : Token → Except Fault (Parsed β)}
    (hf : ∀ t, r.peek = .ok t → Parses ts depth k good' r (f t)) :
    Parses ts depth k good' r (r.peek >>= f) := by
  cases h : r.peek with
  | ok t => exact hf t h
  | error f =>
    obtain rfl := Reader.peek_eq_error h
    exact Reader.Fails.ending

theorem sees {stops : List Token} {yes no : Except Fault (Parsed β)}
    (hyes : ∀ t ∈ stops, r.peek = .ok t → Parses ts depth k good' r yes)
    (hno : Parses ts depth k good' r no) :
    Parses ts depth k good' r (r.sees stops >>= fun b => if b = true then yes else no) := by
  unfold Reader.sees
  rw [bind_assoc]
  refine peek fun t ht => ?_
  by_cases hstop : t ∈ stops
  · simpa [hstop, pure, Except.pure] using hyes t hstop ht
  · simpa [hstop, pure, Except.pure] using hno

theorem sees_one {t : Token} {yes no : Except Fault (Parsed β)}
    (hyes : r.peek = .ok t → Parses ts depth k good' r yes) (hno : Parses ts depth k good' r no) :
    Parses ts depth k good' r (r.sees [t] >>= fun b => if b = true then yes else no) :=
  sees (fun _ hu => List.mem_singleton.mp hu ▸ hyes) hno

/-- A token that must come next, and what is read behind it. -/
theorem expect {t : Token} (hclose : t.closes = false) (hr : r.Sound ts)
    {f : Reader → Except Fault (Parsed β)}
    (hf : ∀ r', r'.Sound ts → Parses ts depth k good' r' (f r')) :
    Parses ts depth k good' r (r.expect t >>= f) := by
  have hsees : (r.expect t >>= f) =
      r.sees [t] >>= fun b => if b = true then f r.next else .error .malformed := by
    rw [Reader.expect, bind_assoc]
    congr 1
    funext b
    cases b <;> rfl
  rw [hsees]
  exact sees_one (fun ht => .after (hr.leads_next ht hclose) (hf _ hr.next)) .malformed

/-- A comma in front of what is read, unless that comes first. -/
theorem comma {first : Bool} (hr : r.Sound ts) {f : Reader → Except Fault (Parsed β)}
    (hf : ∀ r', r'.Sound ts → Parses ts depth k good' r' (f r')) :
    Parses ts depth k good' r
      (if first = true then .ok r >>= f else r.expect .flowEntry >>= f) := by
  cases first with
  | true => exact hf r hr
  | false => exact expect rfl hr hf

/-- A step that does not read goes before what is read. -/
theorem then_reads {γ : Type} {P : γ → Prop} {x : Except Fault γ} (hx : x.Ends P (· = .malformed))
    {f : γ → Except Fault (Parsed β)} (hf : ∀ c, P c → Parses ts depth k good' r (f c)) :
    Parses ts depth k good' r (x >>= f) := by
  cases x with
  | error f =>
    obtain rfl : f = .malformed := hx
    exact malformed
  | ok c => exact hf c hx

/-- Through fewer levels reading fails no less. -/
theorem shallower {d : Nat} (hd : d ≤ depth) (hx : Parses ts depth k good r x) :
    Parses ts d k good r x :=
  Except.Ends.mono hx (fun _ ha => ha) fun _ hf => hf.imp rfl hd.trans

end Parses

/-! ### Properties -/

/-- Where there is a tag, a token gives it. -/
def Properties.Given (ts : List Token) (p : Properties) : Prop :=
  p.tag.isSome → ∃ name, .tag name ∈ ts

theorem Properties.Given.of_none {ts : List Token} {p : Properties} (h : p.tag = none) :
    p.Given ts := by
  intro hsome
  rw [h] at hsome
  cases hsome

/-- A node with these properties stems from tokens if it does without a tag. -/
theorem Properties.Given.stems {ts : List Token} {p : Properties} (hp : p.Given ts) {n : Node}
    (h : p.tag = none → n.Stems ts) : n.Stems ts := by
  cases htag : p.tag with
  | none => exact h htag
  | some t =>
    obtain ⟨name, hname⟩ := hp (by rw [htag]; rfl)
    exact .tagged hname

theorem TagName.resolve_ends (handles : Handles) (n : TagName) :
    (n.resolve handles).Ends (fun _ => True) (· = .malformed) := by
  unfold TagName.resolve
  split
  · trivial
  · split
    · trivial
    · exact rfl

section Reading

variable {ts : List Token} {handles : Handles} {r : Reader}

theorem properties_parses {depth : Nat} (hr : r.Sound ts) :
    Parses ts depth 0 (Properties.Given ts) r (Properties.read handles r) := by
  unfold Properties.read
  refine .peek fun t ht => ?_
  split
  · have hnext := hr.leads_next ht rfl
    refine .after hnext (.peek fun u hu => ?_)
    split
    · have htag := hnext.sound.mem hu
      refine .then_reads (TagName.resolve_ends _ _) fun _ _ => ?_
      exact ⟨fun _ => ⟨_, htag⟩, hnext.sound.leads_next hu rfl⟩
    · exact ⟨.of_none rfl, hnext.sound.refl⟩
  · have htag := hr.mem ht
    have hnext := hr.leads_next ht rfl
    refine .after hnext (.peek fun u hu => ?_)
    split
    · refine .then_reads (TagName.resolve_ends _ _) fun _ _ => ?_
      exact ⟨fun _ => ⟨_, htag⟩, hnext.sound.leads_next hu rfl⟩
    · refine .then_reads (TagName.resolve_ends _ _) fun _ _ => ?_
      exact ⟨fun _ => ⟨_, htag⟩, hnext.sound.refl⟩
  · exact ⟨.of_none rfl, hr.refl⟩

namespace Properties

variable {p : Properties} (hp : p.Given ts)
include hp

theorem grown_scalar {s : String} {plain : Bool} (h : .scalar s plain ∈ ts) :
    (Node.scalar (p.ofScalar s plain) s).Grown ts := by
  refine .scalar (hp.stems fun htag => ?_)
  rw [ofScalar, htag]
  cases plain with
  | true => exact .plain h
  | false => exact .quoted h

theorem grown_empty : (Node.scalar (p.ofScalar "" true) "").Grown ts := by
  refine .scalar (hp.stems fun htag => ?_)
  rw [ofScalar, htag]
  exact .empty

theorem grown_sequence {items : List Node} (h : ∀ n ∈ items, n.Grown ts) :
    (Node.sequence (p.ofCollection .sequence) items).Grown ts := by
  refine .sequence (hp.stems fun htag => ?_) h
  rw [ofCollection, htag]
  exact .sequence

theorem grown_mapping {es : List (Node × Node)} (h : ∀ e ∈ es, e.1.Grown ts ∧ e.2.Grown ts) :
    (Node.mapping (p.ofCollection .mapping) es).Grown ts := by
  refine .mapping (hp.stems fun htag => ?_) h
  rw [ofCollection, htag]
  exact .mapping

end Properties

/-! ### Anchors -/

theorem Reader.enter_ends (hr : r.Sound ts) (anchor : Option String) :
    (r.enter anchor).Ends (fun r' => r'.Sound ts ∧ r'.tokens = r.tokens ∧ r'.fault = r.fault)
      (· = .malformed) := by
  unfold enter
  split
  · exact ⟨hr, rfl, rfl⟩
  · split_ifs
    · exact rfl
    · exact ⟨⟨hr.tokens, List.forall_mem_cons.mpr ⟨.loop .loop, hr.anchors⟩⟩, rfl, rfl⟩

theorem Reader.leads_leave (hr : r.Sound ts) {n : Node} (hn : n.Grown ts) (anchor : Option String) :
    r.Leads ts 0 (r.leave n anchor) := by
  unfold leave
  split
  · exact hr.refl
  · exact ⟨⟨hr.tokens, List.forall_mem_cons.mpr ⟨hn, hr.anchors⟩⟩, rfl, le_rfl⟩

theorem Reader.alias_ends (hr : r.Sound ts) (name : String) :
    (r.alias name).Ends (Node.Grown ts) (· = .malformed) := by
  unfold Reader.alias
  split
  · next n h =>
    obtain ⟨before, after, hanchors, -⟩ := List.lookup_eq_some_iff.mp h
    exact hr.anchors (name, n) (hanchors ▸ List.mem_append_right _ List.mem_cons_self)
  · exact rfl

/-! ### Nodes -/

/-- The key or the value of a block mapping may open a sequence without a token. -/
def Position.slack : Position → Nat
  | .entry => 1
  | _ => 0

variable (ts handles) in
/-- Whatever is read in at most `fuel` steps is made of the tokens. -/
structure Faithful (fuel : Nat) : Prop where
  node {depth : Nat} {r : Reader} (position : Position) : r.Sound ts →
    Parses ts (depth - position.slack) 0 (Node.Grown ts) r
      (parseNode handles fuel depth position r)
  content {depth : Nat} {position : Position} {p : Properties} {t : Token} {r : Reader} :
    r.Sound ts → p.Given ts → r.peek = .ok t →
    Parses ts (depth - position.slack) 0 (Node.Grown ts) r
      (parseContent handles fuel depth position p t r)
  optional {stops : List Token} {depth : Nat} {r : Reader} (position : Position) : r.Sound ts →
    Parses ts (depth - position.slack) 0 (Node.Grown ts) r
      (parseOptional handles stops fuel depth position r)
  marked {mark : Token} {stops : List Token} {depth : Nat} {r : Reader} (position : Position) :
    mark.closes = false → r.Sound ts →
    Parses ts (depth - position.slack) 0 (Node.Grown ts) r
      (parseMarked handles mark stops fuel depth position r)
  blockItems {depth : Nat} {r : Reader} : r.Sound ts →
    Parses ts depth 1 (∀ n ∈ ·, n.Grown ts) r (parseBlockItems handles fuel depth r)
  bareItems {depth : Nat} {r : Reader} : r.Sound ts →
    Parses ts depth 0 (∀ n ∈ ·, n.Grown ts) r (parseBareItems handles fuel depth r)
  blockEntries {depth : Nat} {r : Reader} : r.Sound ts →
    Parses ts (depth - 1) 1 (∀ e ∈ ·, e.1.Grown ts ∧ e.2.Grown ts) r
      (parseBlockEntries handles fuel depth r)
  flowItems {depth : Nat} {first : Bool} {r : Reader} : r.Sound ts →
    Parses ts (depth - 1) 1 (∀ n ∈ ·, n.Grown ts) r (parseFlowItems handles fuel depth first r)
  pair {depth : Nat} {r : Reader} : r.Sound ts →
    Parses ts (depth - 1) 0 (Node.Grown ts) r (parsePair handles fuel depth r)
  flowEntries {depth : Nat} {first : Bool} {r : Reader} : r.Sound ts →
    Parses ts depth 1 (∀ e ∈ ·, e.1.Grown ts ∧ e.2.Grown ts) r
      (parseFlowEntries handles fuel depth first r)
  flowEntry {depth : Nat} {r : Reader} : r.Sound ts →
    Parses ts depth 0 (fun e => e.1.Grown ts ∧ e.2.Grown ts) r
      (parseFlowEntry handles fuel depth r)

namespace Faithful

variable {fuel depth : Nat} {position : Position} (h : Faithful ts handles fuel)

include h

theorem step_node (position : Position) (hr : r.Sound ts) :
    Parses ts (depth - position.slack) 0 (Node.Grown ts) r
      (parseNode handles (fuel + 1) depth position r) := by
  unfold parseNode
  refine .peek fun t ht => ?_
  split
  · exact .then_reads (r.alias_ends hr _) fun n hn => ⟨hn, hr.leads_next ht rfl⟩
  · refine (properties_parses hr).bind fun p r hp hr => .peek fun t ht => ?_
    refine .then_reads (r.enter_ends hr p.anchor) fun r' ⟨hr', htokens, hfault⟩ => ?_
    have ht' : r'.peek = .ok t := by
      rw [← ht, Reader.peek, Reader.peek, htokens, hfault]
    have hleads : r.Leads ts 0 r' := ⟨hr', hfault, le_of_eq (congrArg rise htokens)⟩
    refine .after hleads ((h.content hr' hp ht').bind fun n r hn hr => ?_)
    exact ⟨hn, Reader.leads_leave hr hn _⟩

theorem step_content {p : Properties} {t : Token} (hr : r.Sound ts) (hp : p.Given ts)
    (ht : r.peek = .ok t) :
    Parses ts (depth - position.slack) 0 (Node.Grown ts) r
      (parseContent handles (fuel + 1) depth position p t r) := by
  cases depth with
  | zero => exact .deep (by omega)
  | succ depth =>
    unfold parseContent
    -- a level without a token of its own is paid for by the token that opens the next one
    have hlevel : depth + 1 - position.slack ≤ depth - 1 + 2 := by omega
    have hlevel' : depth + 1 - position.slack ≤ depth + 2 := by omega
    split
    · exact ⟨Properties.grown_scalar hp (hr.mem ht), hr.leads_next ht rfl⟩
    · exact (Parses.inside ht rfl hlevel (h.flowItems hr.next)).last fun items r hitems =>
        ⟨_, rfl, Properties.grown_sequence hp hitems⟩
    · exact (Parses.inside ht rfl hlevel' (h.flowEntries hr.next)).last fun es r hes =>
        ⟨_, rfl, Properties.grown_mapping hp hes⟩
    · split_ifs with hbare hsequence hmapping hempty
      · obtain ⟨rfl, rfl⟩ := hbare
        exact (h.bareItems hr).last fun items r hitems =>
          ⟨_, rfl, Properties.grown_sequence hp hitems⟩
      · obtain ⟨rfl, -⟩ := hsequence
        exact (Parses.inside ht rfl hlevel' (h.blockItems hr.next)).last fun items r hitems =>
          ⟨_, rfl, Properties.grown_sequence hp hitems⟩
      · obtain ⟨rfl, -⟩ := hmapping
        exact (Parses.inside ht rfl hlevel (h.blockEntries hr.next)).last fun es r hes =>
          ⟨_, rfl, Properties.grown_mapping hp hes⟩
      · exact .malformed
      · exact ⟨Properties.grown_empty hp, hr.refl⟩

theorem step_optional {stops : List Token} (position : Position) (hr : r.Sound ts) :
    Parses ts (depth - position.slack) 0 (Node.Grown ts) r
      (parseOptional handles stops (fuel + 1) depth position r) := by
  unfold parseOptional
  exact .sees (fun _ _ _ => ⟨Node.grown_empty ts, hr.refl⟩) (h.node position hr)

theorem step_marked {mark : Token} {stops : List Token} (position : Position)
    (hmark : mark.closes = false) (hr : r.Sound ts) :
    Parses ts (depth - position.slack) 0 (Node.Grown ts) r
      (parseMarked handles mark stops (fuel + 1) depth position r) := by
  unfold parseMarked
  refine .sees_one (fun ht => ?_) ⟨Node.grown_empty ts, hr.refl⟩
  exact .after (hr.leads_next ht hmark) (h.optional position hr.next)

theorem step_blockItems (hr : r.Sound ts) :
    Parses ts depth 1 (∀ n ∈ ·, n.Grown ts) r (parseBlockItems handles (fuel + 1) depth r) := by
  unfold parseBlockItems
  refine .sees_one (fun ht => ?_) (.sees_one (fun ht => ?_) .malformed)
  · refine .after (hr.leads_next ht rfl) ((h.optional .block hr.next).bind ?_)
    intro n r hn hr
    exact (h.blockItems hr).last fun ns r hns => ⟨_, rfl, List.forall_mem_cons.mpr ⟨hn, hns⟩⟩
  · exact ⟨List.forall_mem_nil _, hr.leaves_next ht⟩

theorem step_bareItems (hr : r.Sound ts) :
    Parses ts depth 0 (∀ n ∈ ·, n.Grown ts) r (parseBareItems handles (fuel + 1) depth r) := by
  unfold parseBareItems
  refine .sees_one (fun ht => ?_) ⟨List.forall_mem_nil _, hr.refl⟩
  refine .after (hr.leads_next ht rfl) ((h.optional .block hr.next).bind ?_)
  intro n r hn hr
  exact (h.bareItems hr).last fun ns r hns => ⟨_, rfl, List.forall_mem_cons.mpr ⟨hn, hns⟩⟩

theorem step_blockEntries (hr : r.Sound ts) :
    Parses ts (depth - 1) 1 (∀ e ∈ ·, e.1.Grown ts ∧ e.2.Grown ts) r
      (parseBlockEntries handles (fuel + 1) depth r) := by
  unfold parseBlockEntries
  refine .sees_one (fun ht => ?_) (.sees_one (fun ht => ?_) .malformed)
  · refine .after (hr.leads_next ht rfl) ((h.optional .entry hr.next).bind ?_)
    intro k r hk hr
    refine (h.marked .entry rfl hr).bind fun v r hv hr => ?_
    exact (h.blockEntries hr).last fun es r hes =>
      ⟨_, rfl, List.forall_mem_cons.mpr ⟨⟨hk, hv⟩, hes⟩⟩
  · exact ⟨List.forall_mem_nil _, hr.leaves_next ht⟩

theorem step_flowItems {first : Bool} (hr : r.Sound ts) :
    Parses ts (depth - 1) 1 (∀ n ∈ ·, n.Grown ts) r
      (parseFlowItems handles (fuel + 1) depth first r) := by
  unfold parseFlowItems
  refine .sees_one (fun ht => ⟨List.forall_mem_nil _, hr.leaves_next ht⟩) ?_
  refine .comma hr fun r hr => ?_
  have hrest : ∀ (n : Node) (r : Reader), n.Grown ts → r.Sound ts →
      Parses ts (depth - 1) 1 (∀ n ∈ ·, n.Grown ts) r
        (parseFlowItems handles fuel depth false r >>= fun a => pure (n :: a.1, a.2)) :=
    fun n r hn hr => (h.flowItems hr).last fun ns r hns =>
      ⟨_, rfl, List.forall_mem_cons.mpr ⟨hn, hns⟩⟩
  refine .sees_one (fun ht => ⟨List.forall_mem_nil _, hr.leaves_next ht⟩) (.sees_one ?_ ?_)
  · intro ht
    exact .after (hr.leads_next ht rfl) ((h.pair hr.next).bind hrest)
  · exact Parses.bind (.shallower (Nat.sub_le depth 1) (h.node .flow hr)) hrest

theorem step_flowEntries {first : Bool} (hr : r.Sound ts) :
    Parses ts depth 1 (∀ e ∈ ·, e.1.Grown ts ∧ e.2.Grown ts) r
      (parseFlowEntries handles (fuel + 1) depth first r) := by
  unfold parseFlowEntries
  refine .sees_one (fun ht => ⟨List.forall_mem_nil _, hr.leaves_next ht⟩) ?_
  refine .comma hr fun r hr => ?_
  refine .sees_one (fun ht => ⟨List.forall_mem_nil _, hr.leaves_next ht⟩) ?_
  refine (h.flowEntry hr).bind fun e r he hr => ?_
  exact (h.flowEntries hr).last fun es r hes => ⟨_, rfl, List.forall_mem_cons.mpr ⟨he, hes⟩⟩

theorem step_pair (hr : r.Sound ts) :
    Parses ts (depth - 1) 0 (Node.Grown ts) r (parsePair handles (fuel + 1) depth r) := by
  cases depth with
  | zero => exact .deep (Nat.zero_le _)
  | succ depth =>
    unfold parsePair
    refine (h.optional .flow hr).bind fun k r hk hr => ?_
    exact (h.marked .flow rfl hr).last fun v r hv =>
      ⟨_, rfl, .mapping .mapping (List.forall_mem_singleton.mpr ⟨hk, hv⟩)⟩

theorem step_flowEntry (hr : r.Sound ts) :
    Parses ts depth 0 (fun e => e.1.Grown ts ∧ e.2.Grown ts) r
      (parseFlowEntry handles (fuel + 1) depth r) := by
  unfold parseFlowEntry
  refine .sees_one (fun ht => ?_) ?_
  · refine .after (hr.leads_next ht rfl) ((h.optional .flow hr.next).bind ?_)
    intro k r hk hr
    exact (h.marked .flow rfl hr).last fun v r hv => ⟨_, rfl, hk, hv⟩
  · exact (h.node .flow hr).last fun k r hk => ⟨_, rfl, hk, Node.grown_empty ts⟩

end Faithful

theorem faithful (fuel : Nat) : Faithful ts handles fuel := by
  induction fuel with
  | zero =>
    have hmalformed {α : Type} {depth k : Nat} {good : α → Prop} {r : Reader} :
        Parses ts depth k good r (.error .malformed) := .malformed
    refine ⟨fun _ _ => hmalformed, ?_, fun _ _ => hmalformed, fun _ _ _ => hmalformed,
      fun _ => hmalformed, fun _ => hmalformed, fun _ => hmalformed, fun _ => hmalformed, fun _ => hmalformed,
      fun _ => hmalformed, fun _ => hmalformed⟩
    intro depth position p t r _ _ _
    cases depth with
    | zero => exact .deep (by omega)
    | succ depth => exact .malformed
  | succ fuel ih =>
    exact ⟨ih.step_node, ih.step_content, ih.step_optional, ih.step_marked, ih.step_blockItems,
      ih.step_bareItems, ih.step_blockEntries, ih.step_flowItems, ih.step_pair, ih.step_flowEntries,
      ih.step_flowEntry⟩

end Reading

/-! ### Documents -/

/-- Directives and marks open no collections. -/
theorem readDirectives_ends (versioned : Bool) (hs : Handles) (ts : List Token) :
    (readDirectives versioned hs ts).Ends (fun x => x.2 <:+ ts ∧ rise x.2 ≤ rise ts)
      (· = .malformed) := by
  have hcons : ∀ {c : Command} {rest : List Token} {x : Except Fault (Handles × List Token)},
      x.Ends (fun x => x.2 <:+ rest ∧ rise x.2 ≤ rise rest) (· = .malformed) →
      x.Ends (fun x => x.2 <:+ .directive c :: rest ∧ rise x.2 ≤ rise (.directive c :: rest))
        (· = .malformed) := fun hx =>
    Except.Ends.mono hx
      (fun _ h => ⟨h.1.trans (List.suffix_cons _ _), h.2.trans (rise_le_of_not_closes rfl _)⟩)
      fun _ hf => hf
  fun_induction readDirectives versioned hs ts with
  | case1 | case3 => exact rfl
  | case2 _ _ _ _ _ ih | case4 _ _ _ _ _ _ ih | case5 _ _ _ ih => exact hcons ih
  | case6 => exact ⟨List.suffix_rfl, le_rfl⟩

section Documents

variable {ts : List Token} {r : Reader} {depth : Nat}

theorem startDocument_parses (hr : r.Sound ts) :
    Parses ts depth 0 (fun _ => True) r r.startDocument := by
  unfold Reader.startDocument
  refine .then_reads (readDirectives_ends false [] r.tokens) ?_
  intro (handles, tokens) ⟨hsuffix, hrise⟩
  have hleads : r.Leads ts 0 { r with tokens := tokens } :=
    ⟨⟨hsuffix.trans hr.tokens, hr.anchors⟩, rfl, hrise⟩
  exact .after hleads (.expect rfl hleads.sound fun r hr => ⟨trivial, hr.refl⟩)

theorem parseDocument_parses (fuel : Nat) (hr : r.Sound ts) :
    Parses ts depthLimit 0 (Node.Grown ts) r (parseDocument fuel r) := by
  have hempty : ∀ {r : Reader}, r.Sound ts →
      Parses ts depthLimit 0 (Node.Grown ts) r (.ok (.empty, r)) := fun hr =>
    ⟨Node.grown_empty ts, hr.refl⟩
  unfold parseDocument
  refine .peek fun t _ => ?_
  split
  case h_1 => exact hempty hr
  case h_4 => exact (faithful fuel).node .block hr
  -- a mark or a directive stands in front of the document
  all_goals
    refine (startDocument_parses hr).bind fun handles r _ hr => .peek fun t _ => ?_
    split
    case h_5 => exact (faithful fuel).node .block hr
    all_goals exact hempty hr

theorem rise_dropWhile_documentEnd (ts : List Token) :
    rise (ts.dropWhile (· = Token.documentEnd)) ≤ rise ts := by
  induction ts with
  | nil => exact le_rfl
  | cons t ts ih =>
    by_cases ht : t = .documentEnd
    · rw [List.dropWhile_cons_of_pos (by simpa using ht)]
      subst ht
      exact ih.trans (rise_le_of_not_closes rfl ts)
    · rw [List.dropWhile_cons_of_neg (by simpa using ht)]

theorem finish_ends (hr : r.Sound ts) : r.finish.Ends (fun _ => True) (r.Fails depth) := by
  unfold Reader.finish
  dsimp only
  have hrest : r.Leads ts 0 { r with tokens := r.tokens.dropWhile (· = Token.documentEnd) } :=
    ⟨⟨(List.dropWhile_suffix _).trans hr.tokens, hr.anchors⟩, rfl, rise_dropWhile_documentEnd _⟩
  generalize ({ r with tokens := r.tokens.dropWhile (· = Token.documentEnd) } : Reader) = r' at hrest ⊢
  refine Except.Ends.mono (?_ : Except.Ends (fun _ => True) (r'.Fails depth) _) (fun _ h => h)
    fun _ hf => hf.after hrest
  cases hpeek : r'.peek with
  | error f =>
    obtain rfl := Reader.peek_eq_error hpeek
    exact .ending
  | ok t =>
    rw [Except.ok_bind]
    split
    · trivial
    · exact Except.Ends.bind (startDocument_parses hrest.sound) fun _ _ => .malformed

end Documents

/-- Tokens make a tree of nodes that stem from them, or something is wrong with them, or behind
them. -/
theorem ofTokens_ends (ts : Tokens) :
    (Node.ofTokens ts).Ends (Node.Grown ts.ready)
      (Reader.Fails depthLimit ⟨ts.ready, ts.fault, []⟩) := by
  unfold Node.ofTokens
  refine Except.Ends.bind (parseDocument_parses _ ⟨List.suffix_rfl, by simp⟩) ?_
  intro (n, r) ⟨hn, hr⟩
  have hfinish : r.finish.Ends (fun _ => True) (Reader.Fails depthLimit ⟨ts.ready, ts.fault, []⟩) :=
    Except.Ends.mono (finish_ends hr.sound) (fun _ h => h) fun _ hf => hf.after hr
  exact Except.Ends.bind hfinish fun _ _ => hn

end Reshape.Yaml
