import BatchRun.Yaml.Parser
import Mathlib.Data.List.Nodup

/-!
# No mapping has a key twice

A key that is found twice is noted, and the whole text is refused in the end. A single step may
still go on with such a mapping, so that what it gives is proper only if nothing has been noted
when it is done, and what has been noted is never forgotten.

* `Node.same_iff`: equality of nodes can be decided;
* `Node.Proper`: the keys of every mapping are distinct, and real numbers denote some;
* `Parser.Keeps`, `Keeps.bind`: what one step of reading preserves, and what two of them do;
* `Parser.Entries.add_keeps`: the step at which a key is noted;
* `Parser.readersKeep`: the readers call each other;
* **`proper_of_parseDocuments`**.
-/

namespace BatchRun

namespace Yaml

namespace Node

/-! ## Equality -/

mutual

theorem same_iff (a b : Node) : same a b = true ↔ a = b := by
  cases a with
  | array xs => cases b <;> simp [same, sameItems_iff xs]
  | mapping es => cases b <;> simp [same, sameEntries_iff es]
  | _ => cases b <;> simp [same]

theorem sameItems_iff (xs ys : List Node) : sameItems xs ys = true ↔ xs = ys := by
  match xs with
  | [] => cases ys <;> simp [sameItems]
  | x :: xs => cases ys <;> simp [sameItems, same_iff x, sameItems_iff xs]

theorem sameEntries_iff (es fs : List (Node × Node)) : sameEntries es fs = true ↔ es = fs := by
  match es with
  | [] => cases fs <;> simp [sameEntries]
  | (k, v) :: es =>
    match fs with
    | [] => simp [sameEntries]
    | (l, w) :: fs => simp [sameEntries, same_iff k, same_iff v, sameEntries_iff es, and_assoc]

end

instance : DecidableEq Node := fun a b => decidable_of_iff (same a b = true) (same_iff a b)

/-! ## Proper nodes -/

/-- No mapping has two entries of one key, and the text of a real number denotes one. -/
inductive Proper : Node → Prop where
  | null : Proper .null
  | bool (b : Bool) : Proper (.bool b)
  | int (i : Int) : Proper (.int i)
  | real {s : String} (denotes : isReal s = true) : Proper (.real s)
  | string (s : String) : Proper (.string s)
  | array {xs : List Node} (items : ∀ x ∈ xs, Proper x) : Proper (.array xs)
  | mapping {es : List (Node × Node)} (distinct : (es.map Prod.fst).Nodup)
      (values : ∀ e ∈ es, Proper e.2) : Proper (.mapping es)
  | invalid : Proper .invalid

attribute [simp] Proper.null Proper.bool Proper.int Proper.string Proper.invalid

theorem proper_resolvePlain (s : String) : (resolvePlain s).Proper := by
  rw [resolvePlain]
  repeat' split
  all_goals first | simp | exact .real ‹_›

theorem proper_resolve (isPlain : Bool) (tag : Option Tag) (s : String) :
    (resolve isPlain tag s).Proper := by
  unfold resolve
  split_ifs
  · exact .string s
  · cases tag with
    | none => exact proper_resolvePlain s
    | some t =>
      dsimp only
      rw [resolveStandard]
      repeat' split
      all_goals first | simp | exact .real ‹_›

end Node

namespace Parser

/-! ## Steps -/

variable {α β : Type} {s : Parser} {pre pre' : Prop} {e : Problem}

/-- Whatever an alias may stand for is proper. -/
def Proper (s : Parser) : Prop := ∀ p ∈ s.nodes, p.2.Proper

/-- A step from `s` does not forget a key that has been found twice; and if none has been when it is
done, it gives what is wanted. -/
def Keeps (pre : Prop) (s : Parser) (r : Except Problem (α × Parser)) (post : α → Prop) : Prop :=
  ∀ a s', r = .ok (a, s') → s'.duplicate = none →
    s.duplicate = none ∧ (pre → s.Proper → post a ∧ s'.Proper)

namespace Keeps

variable {r : Except Problem (α × Parser)} {mid post : α → Prop} {wanted : β → Prop}

theorem error : Keeps pre s (.error e) post := nofun

theorem ok {a : α} (h : pre → post a) : Keeps pre s (.ok (a, s)) post := by
  rintro _ _ ⟨⟩ hs
  exact ⟨hs, fun hpre hproper => ⟨h hpre, hproper⟩⟩

theorem weaken (h : Keeps pre s r post) (hpre : pre' → pre) : Keeps pre' s r post := by
  intro a s' hr hs'
  obtain ⟨hs, hpost⟩ := h a s' hr hs'
  exact ⟨hs, fun h' => hpost (hpre h')⟩

theorem skip (h : Keeps pre s.skip r post) : Keeps pre s r post := h

theorem skip_unless (first : Bool) (h : Keeps pre (if first then s else s.skip) r post) :
    Keeps pre s r post := by
  cases first with
  | true => exact h
  | false => exact h

theorem look {γ : Type} {x : Except Problem γ} {f : γ → Except Problem (α × Parser)}
    (h : ∀ c, Keeps pre s (f c) post) : Keeps pre s (x >>= f) post := by
  cases x with
  | error e => exact error
  | ok c => exact h c

theorem bind {f : α × Parser → Except Problem (β × Parser)} (hr : Keeps True s r mid)
    (hf : ∀ a s', Keeps (pre ∧ mid a) s' (f (a, s')) wanted) :
    Keeps pre s (r >>= f) wanted := by
  cases r with
  | error e => exact error
  | ok p =>
    obtain ⟨a, s₁⟩ := p
    intro b s' hb hs'
    obtain ⟨hs₁, hpost⟩ := hf a s₁ b s' hb hs'
    obtain ⟨hs, hmid⟩ := hr a s₁ rfl hs₁
    refine ⟨hs, fun hpre hproper => ?_⟩
    obtain ⟨ha, hproper₁⟩ := hmid trivial hproper
    exact hpost ⟨hpre, ha⟩ hproper₁

theorem ite {c : Prop} [Decidable c] {r' : Except Problem (α × Parser)} (h : Keeps pre s r post)
    (h' : Keeps pre s r' post) : Keeps pre s (if c then r else r') post := by
  split_ifs
  · exact h
  · exact h'

theorem bind_ite {c : Prop} [Decidable c] {r' : Except Problem (α × Parser)}
    {f : α × Parser → Except Problem (β × Parser)} (hr : Keeps True s r mid)
    (hr' : Keeps True s r' mid) (hf : ∀ a s', Keeps (pre ∧ mid a) s' (f (a, s')) wanted) :
    Keeps pre s (if c then r >>= f else r' >>= f) wanted :=
  .ite (.bind hr hf) (.bind hr' hf)

end Keeps

theorem Keeps.of_seen {r : Except Problem (α × Parser)} {post : α → Prop} {seen : List Node}
    {n : Node} (h : Keeps (∀ x ∈ n :: seen, Node.Proper x) s r post) :
    Keeps ((∀ x ∈ seen, Node.Proper x) ∧ n.Proper) s r post :=
  h.weaken fun h => List.forall_mem_cons.2 ⟨h.2, h.1⟩

theorem tag_keeps (s : Parser) : Keeps True s (tag s) fun _ => True := by
  refine .look fun t => ?_
  split
  · exact .look fun _ => .skip (.ok id)
  · exact .ok id

theorem anchor_keeps (s : Parser) : Keeps True s (anchor s) fun _ => True := by
  refine .look fun t => ?_
  split
  · rintro _ _ ⟨⟩ hs
    exact ⟨hs, fun _ hproper => ⟨trivial, hproper⟩⟩
  · exact .ok id

theorem properties_keeps (s : Parser) : Keeps True s (properties s) fun _ => True := by
  refine .look fun t => ?_
  split
  · exact .bind (anchor_keeps s) fun _ s => .bind (tag_keeps s) fun _ _ => .ok fun _ => trivial
  · exact .bind (tag_keeps s) fun _ s => .bind (anchor_keeps s) fun _ _ => .ok fun _ => trivial
  · exact .ok id

theorem complete_keeps (number : Option Nat) (n : Node) :
    Keeps n.Proper s (.ok (n, s.complete number n)) Node.Proper := by
  rintro _ _ ⟨⟩ hs
  cases number with
  | none => exact ⟨hs, fun hn hproper => ⟨hn, hproper⟩⟩
  | some i => exact ⟨hs, fun hn hproper => ⟨hn, List.forall_mem_cons.2 ⟨hn, hproper⟩⟩⟩

/-! ## Entries -/

namespace Entries

variable {es : Entries} {n : Node}

/-- The keys of the complete entries are distinct. -/
structure Proper (es : Entries) : Prop where
  distinct : (es.done.map Prod.fst).Nodup
  values : ∀ e ∈ es.done, e.2.Proper

theorem proper_empty : empty.Proper := ⟨List.nodup_nil, List.forall_mem_nil _⟩

theorem Proper.node (h : es.Proper) : es.node.Proper := by
  refine .mapping ?_ fun e he => h.values e (List.mem_reverse.1 he)
  rw [List.map_reverse, List.nodup_reverse]
  exact h.distinct

theorem add_keeps (es : Entries) (n : Node) (s : Parser) :
    Keeps (es.Proper ∧ n.Proper) s (.ok (es.add n s)) Proper := by
  rw [add]
  by_cases hkey : es.key.isInvalid = true
  · rw [if_pos hkey]
    exact .ok fun h => ⟨h.1.distinct, h.1.values⟩
  rw [if_neg hkey]
  rintro _ s' ⟨⟩ hs'
  cases hknown : es.done.any fun (e : Node × Node) => e.1.same es.key with
  | true =>
    -- the key is noted, or another one has been before
    rw [hknown] at hs'
    cases hs : s.duplicate <;> simp [hs] at hs'
  | false =>
    rw [hknown] at hs'
    refine ⟨hs', fun h hproper => ⟨⟨List.nodup_cons.2 ⟨?_, h.1.distinct⟩, ?_⟩, hproper⟩⟩
    · intro hmem
      obtain ⟨e, he, heq⟩ := List.mem_map.1 hmem
      exact List.any_eq_false.1 hknown e he ((Node.same_iff _ _).2 heq)
    · exact List.forall_mem_cons.2 ⟨h.2, h.1.values⟩

end Entries

theorem Keeps.of_add {es : Entries} {n : Node} {r : Except Problem (α × Parser)} {post : α → Prop}
    (h : Keeps (es.add n s).1.Proper (es.add n s).2 r post) :
    Keeps (es.Proper ∧ n.Proper) s r post := by
  intro a s' hr hs'
  obtain ⟨hadded, hpost⟩ := h a s' hr hs'
  obtain ⟨hs, hproper⟩ := es.add_keeps n s _ _ rfl hadded
  refine ⟨hs, fun hpre hs => ?_⟩
  obtain ⟨hes, hs⟩ := hproper hpre hs
  exact hpost hes hs

theorem Keeps.of_missing {es : Entries} {r : Except Problem (α × Parser)} {post : α → Prop}
    (h : Keeps (es.add missing s).1.Proper (es.add missing s).2 r post) :
    Keeps es.Proper s r post :=
  (Keeps.of_add h).weaken fun hes => ⟨hes, .null⟩

/-! ## The readers -/

/-- The readers at some fuel. -/
structure ReadersKeep (fuel : Nat) : Prop where
  node : ∀ block indentless s, Keeps True s (node fuel block indentless s) Node.Proper
  blockItems : ∀ seen s, Keeps (∀ x ∈ seen, Node.Proper x) s (blockItems fuel seen s) Node.Proper
  indentlessItems : ∀ seen s,
    Keeps (∀ x ∈ seen, Node.Proper x) s (indentlessItems fuel seen s) Node.Proper
  blockPart : ∀ s, Keeps True s (blockPart fuel s) Node.Proper
  blockEntries : ∀ es s, Keeps es.Proper s (blockEntries fuel es s) Node.Proper
  blockValue : ∀ es s, Keeps es.Proper s (blockValue fuel es s) Node.Proper
  flowItems : ∀ first seen s,
    Keeps (∀ x ∈ seen, Node.Proper x) s (flowItems fuel first seen s) Node.Proper
  flowPair : ∀ s, Keeps True s (flowPair fuel s) Node.Proper
  flowEntries : ∀ first es s, Keeps es.Proper s (flowEntries fuel first es s) Node.Proper
  flowValue : ∀ es s, Keeps es.Proper s (flowValue fuel es s) Node.Proper

variable {fuel : Nat}

theorem proper_array_reverse {seen : List Node} (h : ∀ x ∈ seen, Node.Proper x) :
    (Node.array seen.reverse).Proper :=
  .array fun x hx => h x (List.mem_reverse.1 hx)

theorem blockItems_keep (ih : ReadersKeep fuel) (seen : List Node) (s : Parser) :
    Keeps (∀ x ∈ seen, Node.Proper x) s (blockItems (fuel + 1) seen s) Node.Proper := by
  unfold blockItems
  refine .look fun t => ?_
  split
  · exact .skip (.ok proper_array_reverse)
  · refine .skip (.look fun t => ?_)
    split_ifs
    · exact (Keeps.of_seen (ih.blockItems _ _)).weaken fun h => ⟨h, .null⟩
    · exact .bind (ih.node true false _) fun x s => .of_seen (ih.blockItems _ s)
  · exact .error

theorem indentlessItems_keep (ih : ReadersKeep fuel) (seen : List Node) (s : Parser) :
    Keeps (∀ x ∈ seen, Node.Proper x) s (indentlessItems (fuel + 1) seen s) Node.Proper := by
  unfold indentlessItems
  refine .look fun t => ?_
  split
  · refine .skip (.look fun t => ?_)
    split_ifs
    · exact (Keeps.of_seen (ih.indentlessItems _ _)).weaken fun h => ⟨h, .null⟩
    · exact .bind (ih.node true false _) fun x s => .of_seen (ih.indentlessItems _ s)
  · exact .ok proper_array_reverse

theorem blockPart_keep (ih : ReadersKeep fuel) (s : Parser) :
    Keeps True s (blockPart (fuel + 1) s) Node.Proper := by
  unfold blockPart
  refine .look fun t => ?_
  split_ifs
  · exact .ok fun _ => .null
  · exact ih.node true true s

theorem blockEntries_keep (ih : ReadersKeep fuel) (es : Entries) (s : Parser) :
    Keeps es.Proper s (blockEntries (fuel + 1) es s) Node.Proper := by
  unfold blockEntries
  refine .look fun t => ?_
  split
  · exact .skip (.ok Entries.Proper.node)
  · exact .skip (.bind (ih.blockPart _) fun k s => .of_add (ih.blockValue _ _))
  · exact .of_missing (ih.blockValue _ _)
  · exact .error

theorem blockValue_keep (ih : ReadersKeep fuel) (es : Entries) (s : Parser) :
    Keeps es.Proper s (blockValue (fuel + 1) es s) Node.Proper := by
  unfold blockValue
  refine .look fun t => ?_
  split
  · exact .skip (.bind (ih.blockPart _) fun v s => .of_add (ih.blockEntries _ _))
  · exact .of_missing (ih.blockEntries _ _)

theorem flowItems_keep (ih : ReadersKeep fuel) (first : Bool) (seen : List Node) (s : Parser) :
    Keeps (∀ x ∈ seen, Node.Proper x) s (flowItems (fuel + 1) first seen s) Node.Proper := by
  unfold flowItems
  refine .look fun t => .ite (.skip (.ok proper_array_reverse)) <| .ite .error <|
    .skip_unless first ?_
  -- from here on it is the same with a comma before the item and without one
  generalize (if first = true then s else s.skip) = s
  refine .look fun t => ?_
  split
  · exact .skip (.ok proper_array_reverse)
  · exact .skip (.bind (ih.flowPair _) fun x s => .of_seen (ih.flowItems false _ s))
  · exact .bind (ih.node false false _) fun x s => .of_seen (ih.flowItems false _ s)

theorem flowPair_keep (ih : ReadersKeep fuel) (s : Parser) :
    Keeps True s (flowPair (fuel + 1) s) Node.Proper := by
  unfold flowPair
  refine .look fun t => .bind_ite (.skip (.ok fun _ => .null)) (ih.node false false _) fun k s => ?_
  have hempty : True ∧ k.Proper → Entries.empty.Proper ∧ k.Proper :=
    fun h => ⟨Entries.proper_empty, h.2⟩
  refine .weaken (.of_add (.look fun t => ?_)) hempty
  split
  · exact .skip <| .look fun _ => .bind_ite (.ok fun _ => .null) (ih.node false false _)
      fun v s => .of_add (.ok Entries.Proper.node)
  · exact .of_missing (.ok Entries.Proper.node)

theorem flowEntries_keep (ih : ReadersKeep fuel) (first : Bool) (es : Entries) (s : Parser) :
    Keeps es.Proper s (flowEntries (fuel + 1) first es s) Node.Proper := by
  unfold flowEntries
  refine .look fun t => .ite (.skip (.ok Entries.Proper.node)) <| .ite .error <|
    .skip_unless first ?_
  generalize (if first = true then s else s.skip) = s
  refine .look fun t => ?_
  split
  · exact .skip (.ok Entries.Proper.node)
  · exact .skip <| .look fun _ => .bind_ite (.ok fun _ => .null) (ih.node false false _)
      fun k s => .of_add (ih.flowValue _ _)
  · exact .of_missing (ih.flowValue _ _)
  · exact .bind (ih.node false false _) fun k s => .of_add <| .look fun _ =>
      .of_missing (ih.flowEntries _ _ _)

theorem flowValue_keep (ih : ReadersKeep fuel) (es : Entries) (s : Parser) :
    Keeps es.Proper s (flowValue (fuel + 1) es s) Node.Proper := by
  unfold flowValue
  refine .look fun t => ?_
  split
  · exact .skip <| .look fun _ => .bind_ite (.ok fun _ => .null) (ih.node false false _)
      fun v s => .of_add (ih.flowEntries _ _ _)
  · exact .of_missing (ih.flowEntries _ _ _)

theorem Keeps.completed {r : Except Problem (Node × Parser)} (h : Keeps True s r Node.Proper)
    (number : Option Nat) :
    Keeps pre s (do let p ← r; .ok (p.1, p.2.complete number p.1)) Node.Proper :=
  .bind h fun n _ => (complete_keeps number n).weaken And.right

theorem nodeOf_proper (hs : s.Proper) (number : Nat) : (s.nodeOf number).Proper := by
  rw [nodeOf]
  cases h : s.nodes.lookup number with
  | none => exact .invalid
  | some n =>
    obtain ⟨before, after, heq, _⟩ := List.lookup_eq_some_iff.1 h
    have hmem : (number, n) ∈ s.nodes := by simp [heq]
    exact hs _ hmem

theorem node_keep (ih : ReadersKeep fuel) (block indentless : Bool) (s : Parser) :
    Keeps True s (node (fuel + 1) block indentless s) Node.Proper := by
  unfold node
  refine .look fun t => ?_
  split
  · split
    · exact .error
    · rintro _ _ ⟨⟩ hs
      exact ⟨hs, fun _ hproper => ⟨nodeOf_proper hproper _, hproper⟩⟩
  · refine .bind (properties_keeps s) fun props s => .look fun t => ?_
    dsimp only
    split
    · exact .completed ((ih.indentlessItems [] s).weaken fun _ => List.forall_mem_nil _) _
    · exact .completed (.skip (.ok fun _ => Node.proper_resolve _ _ _)) _
    · exact .completed ((ih.flowItems true [] s.skip).weaken fun _ => List.forall_mem_nil _) _
    · exact .completed ((ih.flowEntries true .empty s.skip).weaken fun _ => Entries.proper_empty) _
    · exact .completed ((ih.blockItems [] s.skip).weaken fun _ => List.forall_mem_nil _) _
    · exact .completed ((ih.blockEntries .empty s.skip).weaken fun _ => Entries.proper_empty) _
    · split_ifs
      · exact .completed (.ok fun _ => Node.proper_resolve _ _ _) _
      · exact .error

theorem readersKeep (fuel : Nat) : ReadersKeep fuel := by
  induction fuel with
  | zero =>
    exact ⟨fun _ _ _ => .error, fun _ _ => .error, fun _ _ => .error, fun _ => .error,
      fun _ _ => .error, fun _ _ => .error, fun _ _ _ => .error, fun _ => .error,
      fun _ _ _ => .error, fun _ _ => .error⟩
  | succ fuel ih =>
    exact ⟨node_keep ih, blockItems_keep ih, indentlessItems_keep ih, blockPart_keep ih,
      blockEntries_keep ih, blockValue_keep ih, flowItems_keep ih, flowPair_keep ih,
      flowEntries_keep ih, flowValue_keep ih⟩

/-! ## Documents -/

/-- Markers and directives give no node. -/
def Passes (s : Parser) (r : Except Problem Parser) : Prop :=
  ∀ s', r = .ok s' → s'.duplicate = s.duplicate ∧ s'.nodes = s.nodes

theorem Passes.here : Passes s (.ok s) := by
  rintro _ ⟨⟩
  exact ⟨rfl, rfl⟩

theorem Passes.look {f : Token → Except Problem Parser} (h : ∀ t, Passes s (f t)) :
    Passes s (s.peek >>= f) := by
  cases s.peek with
  | error e => exact nofun
  | ok t => exact h t

theorem skipEndMarkers_passes (fuel : Nat) (s : Parser) : Passes s (skipEndMarkers fuel s) := by
  induction fuel generalizing s with
  | zero => exact .here
  | succ fuel ih =>
    rw [skipEndMarkers]
    refine .look fun t => ?_
    split
    · exact ih s.skip
    · exact .here

theorem directives_passes (fuel : Nat) (versioned : Bool) (s : Parser) :
    Passes s (directives fuel versioned s) := by
  induction fuel generalizing versioned s with
  | zero => exact .here
  | succ fuel ih =>
    rw [directives]
    refine .look fun t => ?_
    split
    · split_ifs
      · exact nofun
      · exact ih true _
    · exact ih versioned _
    · exact .here

theorem Keeps.pass {r : Except Problem Parser} {f : Parser → Except Problem (α × Parser)}
    {post : α → Prop} (h : Passes s r) (hf : ∀ s', Keeps pre s' (f s') post) :
    Keeps pre s (r >>= f) post := by
  cases r with
  | error e => exact .error
  | ok s₁ =>
    obtain ⟨hdup, hnodes⟩ := h s₁ rfl
    intro a s' ha hs'
    obtain ⟨hs, hpost⟩ := hf s₁ a s' ha hs'
    rw [hdup] at hs
    refine ⟨hs, fun hpre hproper => hpost hpre ?_⟩
    rw [Proper, hnodes]
    exact hproper

theorem explicitDocument_keeps (fuel : Nat) (s : Parser) :
    Keeps True s (explicitDocument fuel s) Node.Proper := by
  unfold explicitDocument
  refine .pass (directives_passes _ _ _) fun s => .look fun t => ?_
  split
  · refine .skip (.look fun t => ?_)
    split_ifs
    · exact .ok fun _ => .null
    · exact (readersKeep fuel).node true false _
  · exact .error

theorem documents_keeps (fuel : Nat) (implicit : Bool) (seen : List Node) (s : Parser) :
    Keeps (∀ x ∈ seen, Node.Proper x) s (documents fuel implicit seen s)
      fun roots => ∀ x ∈ roots, Node.Proper x := by
  induction fuel generalizing implicit seen s with
  | zero => exact .error
  | succ fuel ih =>
    rw [documents]
    refine .pass (skipEndMarkers_passes _ _) fun s => .look fun t => .ite ?_ ?_
    · exact .ok fun h x hx => h x (List.mem_reverse.1 hx)
    · refine .bind_ite ((readersKeep fuel).node true false _) (explicitDocument_keeps fuel _)
        fun root s => .look fun t => ?_
      exact .ite (.of_seen (ih true _ _)) (.ite .error (.of_seen (ih false _ _)))

end Parser

/-- **No mapping of what is read has two entries of one key, and what is read as a real number
denotes one.** -/
theorem proper_of_parseDocuments {text : String} {roots : List Node}
    (h : parseDocuments text = .ok roots) : ∀ root ∈ roots, root.Proper := by
  let s : Parser := ⟨(tokenize text).tokens.drop 1, (tokenize text).problem, [], [], 1, [], none⟩
  have hkeeps := Parser.documents_keeps (8 * (tokenize text).tokens.length + 8) true [] s
  rw [parseDocuments] at h
  cases hread : s.documents (8 * (tokenize text).tokens.length + 8) true [] with
  | error e =>
    rw [hread] at h
    cases h
  | ok p =>
    obtain ⟨found, s'⟩ := p
    rw [hread] at h
    dsimp only [Bind.bind, Except.bind] at h
    split at h
    · cases h
    · next hdup =>
      cases h
      exact ((hkeeps _ _ hread hdup).2 (List.forall_mem_nil _) (List.forall_mem_nil _)).1

end Yaml

end BatchRun
