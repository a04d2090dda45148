import BatchRun.Proofs.Run.Stages
import Mathlib.Data.List.Forall2

/-!
# Activities side by side

Two activities on two clients are compared while the clients are in related states. They are in
step if they do the same at the same times. They are alike if a view shows the same of what they
do, however long that takes. What is in step is alike; a deadline keeps only the former.

* `Ending.Alike`, `Course.InStep`, `Course.Alike`: endings and courses side by side;
* `Reply.InStep`, `Reply.Alike`, `Step.Alike`: what two clients answer and deliver;
* `Act.InStep.bind`, `Act.Alike.bind`: activities in a row;
* **`Act.InStep.within`**: what is in step meets a deadline or misses it together;
* `Act.inStep_follow`: watches that deliver the same are followed in step.
-/

namespace BatchRun

variable {σ τ ε α β α' β' γ κ : Type}

/-! ## Endings -/

/-- Both endings return related values, or they are the same. -/
inductive Ending.Alike (r : α → β → Prop) : Ending ε α → Ending ε β → Prop
  | returned {a : α} {b : β} (related : r a b) : Alike r (.returned a) (.returned b)
  | failed (error : ε) : Alike r (.failed error) (.failed error)
  | panicked (message : String) : Alike r (.panicked message) (.panicked message)
  | stuck : Alike r .stuck .stuck

namespace Ending

variable {r : α → β → Prop} {q : α' → β' → Prop} {e : Ending ε α} {e' : Ending ε β}

theorem Alike.refl (e : Ending ε α) : e.Alike Eq e := by
  cases e with
  | returned a => exact .returned rfl
  | failed error => exact .failed error
  | panicked message => exact .panicked message
  | stuck => exact .stuck

theorem Alike.eq {e' : Ending ε α} (h : e.Alike Eq e') : e = e' := by
  cases h with
  | returned related => rw [related]
  | _ => rfl

theorem Alike.isOver_eq (h : e.Alike r e') : e.isOver = e'.isOver := by
  cases h <;> rfl

theorem Alike.elim_eq (h : e.Alike r e') (z : γ) {f : α → γ} {g : β → γ}
    (hf : ∀ a b, r a b → f a = g b) : e.value?.elim z f = e'.value?.elim z g := by
  cases h with
  | returned related => exact hf _ _ related
  | _ => rfl

theorem Alike.bind (h : e.Alike r e') {f : α → Ending ε α'} {g : β → Ending ε β'}
    (hf : ∀ a b, r a b → (f a).Alike q (g b)) : (e.bind f).Alike q (e'.bind g) := by
  cases h with
  | returned related => exact hf _ _ related
  | failed error => exact .failed error
  | panicked message => exact .panicked message
  | stuck => exact .stuck

end Ending

/-! ## Courses -/

namespace Course

/-- The same is done at the same times, with like endings. -/
structure InStep (r : α → β → Prop) (c : Course ε α) (d : Course ε β) : Prop where
  entries : c.entries = d.entries
  ending : c.ending.Alike r d.ending
  length : c.length = d.length

/-- A view shows the same, and the endings are alike. -/
structure Alike (view : Deed → Option γ) (r : α → β → Prop) (c : Course ε α) (d : Course ε β) :
    Prop where
  seen : c.seen view = d.seen view
  ending : c.ending.Alike r d.ending

variable {view : Deed → Option γ} {r : α → β → Prop} {q : α' → β' → Prop} {c : Course ε α}
  {d : Course ε β}

theorem InStep.refl (c : Course ε α) : c.InStep Eq c := ⟨rfl, .refl _, rfl⟩

theorem InStep.alike (h : c.InStep r d) : c.Alike view r d :=
  ⟨congrArg (Entry.shown view) h.entries, h.ending⟩

theorem InStep.bind (h : c.InStep r d) {f : α → Course ε α'} {g : β → Course ε β'}
    (hf : ∀ a b, r a b → (f a).InStep q (g b)) : (c.bind f).InStep q (d.bind g) where
  entries := by
    rw [entries_bind, entries_bind, h.entries, h.length,
      h.ending.elim_eq [] fun a b hab => congrArg (List.map _) (hf a b hab).entries]
  ending := by
    rw [ending_bind, ending_bind]
    exact h.ending.bind fun a b hab => (hf a b hab).ending
  length := by
    rw [length_bind, length_bind, h.length, h.ending.elim_eq 0 fun a b hab => (hf a b hab).length]

theorem Alike.bind (h : c.Alike view r d) {f : α → Course ε α'} {g : β → Course ε β'}
    (hf : ∀ a b, r a b → (f a).Alike view q (g b)) : (c.bind f).Alike view q (d.bind g) where
  seen := by
    rw [seen_bind, seen_bind, h.seen, h.ending.elim_eq [] fun a b hab => (hf a b hab).seen]
  ending := by
    rw [ending_bind, ending_bind]
    exact h.ending.bind fun a b hab => (hf a b hab).ending

theorem InStep.within (h : c.InStep r d) (limit : Nat) (late : Notice) (error : ε) :
    (c.within limit late error).InStep r (d.within limit late error) := by
  have hends : c.endsBy limit = d.endsBy limit := by
    rw [endsBy, endsBy, h.ending.isOver_eq, h.length]
  unfold Course.within
  rw [← hends]
  split
  · exact h
  · rw [h.entries]
    exact ⟨rfl, .failed error, rfl⟩

theorem InStep.held (h : c.InStep r d) (connection : Connection) :
    (c.held connection).InStep r (d.held connection) := by
  unfold Course.held
  rw [h.entries, h.ending.isOver_eq, h.length]
  exact ⟨rfl, h.ending, rfl⟩

theorem seen_held_eq (view : Deed → Option γ) (connection : Connection) (c : Course ε α) :
    (c.held connection).seen view = (view (.opened connection)).toList ++ c.seen view ++
      if c.ending.isOver then (view (.released connection)).toList else [] := by
  unfold Course.held seen
  cases c.ending.isOver <;> simp

theorem Alike.held (h : c.Alike view r d) (connection : Connection) :
    (c.held connection).Alike view r (d.held connection) := by
  refine ⟨?_, h.ending⟩
  rw [seen_held_eq, seen_held_eq, h.seen, h.ending.isOver_eq]

end Course

/-! ## Answers and events -/

/-- Both outcomes return related answers and leave the clients in related states, or they are the
same. -/
inductive Outcome.Alike (R : σ → τ → Prop) (q : Except Fault α → Except Fault β → Prop) :
    Outcome σ α → Outcome τ β → Prop
  | returns {answer : Except Fault α} {answer' : Except Fault β} {s : σ} {t : τ}
    (related : q answer answer') (states : R s t) :
      Alike R q (.returns answer s) (.returns answer' t)
  | panics (message : String) : Alike R q (.panics message) (.panics message)
  | hangs : Alike R q .hangs .hangs

/-- Two replies that differ at most in how long they take. -/
structure Reply.Alike (R : σ → τ → Prop) (q : Except Fault α → Except Fault β → Prop)
    (r : Reply σ α) (r' : Reply τ β) : Prop where
  remarks : r.remarks = r'.remarks
  lines : r.lines.map Timed.value = r'.lines.map Timed.value
  outcome : r.outcome.Alike R q r'.outcome

/-- Two replies that take the same time, too, line by line. -/
structure Reply.InStep (R : σ → τ → Prop) (q : Except Fault α → Except Fault β → Prop)
    (r : Reply σ α) (r' : Reply τ β) : Prop extends r.Alike R q r' where
  waits : r.lines = r'.lines
  rest : r.rest = r'.rest

/-- Two steps of a watch that deliver the same after the same wait. -/
structure Step.Alike (R : σ → τ → Prop) (step : Step σ α) (step' : Step τ α) : Prop where
  wait : step.wait = step'.wait
  remarks : step.remarks = step'.remarks
  item : step.item = step'.item
  client : R step.client step'.client

/-- Two watches are refused with the same fault, or both open and deliver the same in step. -/
inductive Feed.Alike (R : σ → τ → Prop) :
    Except Fault (Feed σ α) → Except Fault (Feed τ α) → Prop
  | opened {feed : Feed σ α} {feed' : Feed τ α}
    (steps : List.Forall₂ (Step.Alike R) feed.steps feed'.steps)
    (closes : feed.closes = feed'.closes) : Alike R (.ok feed) (.ok feed')
  | refused (fault : Fault) : Alike R (.error fault) (.error fault)

theorem Outcome.Alike.refl (o : Outcome σ α) {q : Except Fault α → Except Fault α → Prop}
    (hq : ∀ answer, q answer answer) : o.Alike Eq q o := by
  cases o with
  | returns answer s => exact .returns (hq answer) rfl
  | panics message => exact .panics message
  | hangs => exact .hangs

theorem Reply.InStep.refl (r : Reply σ α) {q : Except Fault α → Except Fault α → Prop}
    (hq : ∀ answer, q answer answer) : r.InStep Eq q r :=
  ⟨⟨rfl, rfl, .refl _ hq⟩, rfl, rfl⟩

theorem Feed.Alike.refl (answer : Except Fault (Feed σ α)) : Feed.Alike Eq answer answer := by
  cases answer with
  | error fault => exact .refused fault
  | ok feed => exact .opened (List.forall₂_same.2 fun _ _ => ⟨rfl, rfl, rfl, rfl⟩) rfl

/-! ## Activities -/

namespace Act

/-- Related values, with the clients in related states. -/
def Paired (R : σ → τ → Prop) (r : α → β → Prop) (p : α × σ) (p' : β × τ) : Prop :=
  r p.1 p'.1 ∧ R p.2 p'.2

/-- In related states the two activities are in step. -/
def InStep (R : σ → τ → Prop) (r : α → β → Prop) (x : Act σ ε α) (y : Act τ ε β) : Prop :=
  ∀ s t, R s t → (x s).InStep (Paired R r) (y t)

/-- In related states the two activities are alike. -/
def Alike (view : Deed → Option γ) (R : σ → τ → Prop) (r : α → β → Prop) (x : Act σ ε α)
    (y : Act τ ε β) : Prop :=
  ∀ s t, R s t → (x s).Alike view (Paired R r) (y t)

variable {view : Deed → Option γ} {R : σ → τ → Prop} {r : α → β → Prop} {q : α' → β' → Prop}
  {x : Act σ ε α} {y : Act τ ε β}

theorem InStep.alike (h : InStep R r x y) : Alike view R r x y := fun s t hst => (h s t hst).alike

theorem InStep.bind (h : InStep R r x y) {f : α → Act σ ε α'} {g : β → Act τ ε β'}
    (hf : ∀ a b, r a b → InStep R q (f a) (g b)) : InStep R q (x >>= f) (y >>= g) :=
  fun s t hst => (h s t hst).bind fun p p' hp => hf p.1 p'.1 hp.1 p.2 p'.2 hp.2

theorem Alike.bind (h : Alike view R r x y) {f : α → Act σ ε α'} {g : β → Act τ ε β'}
    (hf : ∀ a b, r a b → Alike view R q (f a) (g b)) : Alike view R q (x >>= f) (y >>= g) :=
  fun s t hst => (h s t hst).bind fun p p' hp => hf p.1 p'.1 hp.1 p.2 p'.2 hp.2

theorem inStep_pure {a : α} {b : β} (h : r a b) :
    InStep R r (Pure.pure a : Act σ ε α) (Pure.pure b : Act τ ε β) :=
  fun _ _ hst => ⟨rfl, .returned ⟨h, hst⟩, rfl⟩

theorem inStep_lift (c : Course ε α) : InStep R Eq (lift c : Act σ ε α) (lift c : Act τ ε α) :=
  fun _ _ hst => (Course.InStep.refl c).bind fun _ _ hab => ⟨rfl, .returned ⟨hab, hst⟩, rfl⟩

theorem inStep_note (notice : Notice) :
    InStep R Eq (note notice : Act σ ε Unit) (note notice : Act τ ε Unit) := inStep_lift _

theorem inStep_fail (error : ε) :
    InStep R r (fail error : Act σ ε α) (fail error : Act τ ε β) :=
  fun _ _ _ => ⟨rfl, .failed error, rfl⟩

theorem InStep.within (h : InStep R r x y) (limit : Nat) (late : Notice) (error : ε) :
    InStep R r (x.within limit late error) (y.within limit late error) :=
  fun s t hst => (h s t hst).within limit late error

theorem InStep.held (h : InStep R r x y) (connection : Connection) :
    InStep R r (x.held connection) (y.held connection) :=
  fun s t hst => (h s t hst).held connection

theorem Alike.held (h : Alike view R r x y) (connection : Connection) :
    Alike view R r (x.held connection) (y.held connection) :=
  fun s t hst => (h s t hst).held connection

/-! ### Calls -/

section Ask

variable {q : Except Fault α → Except Fault β → Prop} {reply : σ → Reply σ α}
  {reply' : τ → Reply τ β}

theorem deeds_eq_of_alike {r : Reply σ α} {r' : Reply τ β} (h : r.Alike R q r') :
    r.deeds = r'.deeds := by
  have hlines (lines : List (Timed String)) :
      (lines.map fun (line : Timed String) => Deed.line (outputLine line.value)) =
        (lines.map Timed.value).map fun (raw : String) => .line (outputLine raw) := by
    rw [List.map_map]
    rfl
  rw [Reply.deeds, Reply.deeds, h.remarks, hlines, hlines, h.lines]

theorem ending_course_alike {r : Reply σ α} {r' : Reply τ β} (h : r.Alike R q r') :
    (r.course : Course ε _).ending.Alike (Paired R q) (r'.course : Course ε _).ending := by
  rw [Reply.ending_course, Reply.ending_course]
  have houtcome := h.outcome
  generalize r.outcome = o at houtcome
  generalize r'.outcome = o' at houtcome
  cases houtcome with
  | returns related states => exact .returned ⟨related, states⟩
  | panics message => exact .panicked message
  | hangs => exact .stuck

theorem alike_course {r : Reply σ α} {r' : Reply τ β} (h : r.Alike R q r') :
    (r.course : Course ε _).Alike view (Paired R q) (r'.course : Course ε _) :=
  ⟨by rw [Reply.seen_course, Reply.seen_course, deeds_eq_of_alike h], ending_course_alike h⟩

theorem inStep_course {r : Reply σ α} {r' : Reply τ β} (h : r.InStep R q r') :
    (r.course : Course ε _).InStep (Paired R q) (r'.course : Course ε _) := by
  have hrest : (⟨[], r.outcome.ending, r.rest⟩ : Course ε _).InStep (Paired R q)
      ⟨[], r'.outcome.ending, r'.rest⟩ := by
    refine ⟨rfl, ?_, h.rest⟩
    have hending := ending_course_alike (ε := ε) h.toAlike
    rwa [Reply.ending_course, Reply.ending_course] at hending
  rw [Reply.course, Reply.course, h.remarks, h.waits]
  exact (Course.InStep.refl _).bind fun _ _ _ => (Course.InStep.refl _).bind fun _ _ _ => hrest

/-- The same call is alike on two clients that answer it alike, be one slower than the other. -/
theorem alike_ask (call : Call) (h : ∀ s t, R s t → (reply s).Alike R q (reply' t)) :
    Alike view R q (ask call reply : Act σ ε _) (ask call reply' : Act τ ε _) :=
  fun s t hst => (Course.InStep.refl (Course.deed (.call call))).alike.bind fun _ _ _ =>
    (alike_course (h s t hst)).bind fun _ _ hpaired =>
      (Course.InStep.refl (Course.deed (.answered call))).alike.bind fun _ _ _ =>
        ⟨rfl, .returned hpaired⟩

theorem inStep_ask (call : Call) (h : ∀ s t, R s t → (reply s).InStep R q (reply' t)) :
    InStep R q (ask call reply : Act σ ε _) (ask call reply' : Act τ ε _) :=
  fun s t hst => (Course.InStep.refl (Course.deed (.call call))).bind fun _ _ _ =>
    (inStep_course (h s t hst)).bind fun _ _ hpaired =>
      (Course.InStep.refl (Course.deed (.answered call))).bind fun _ _ _ =>
        ⟨rfl, .returned hpaired, rfl⟩

end Ask

/-! ### Watches -/

theorem inStep_arrive {step : Step σ α} {step' : Step τ α} (h : step.Alike R step') :
    InStep R Eq (arrive step : Act σ ε Unit) (arrive step' : Act τ ε Unit) := by
  intro s t _
  unfold arrive
  rw [h.remarks, h.wait]
  exact ⟨rfl, .returned ⟨rfl, h.client⟩, rfl⟩

theorem inStep_notes (ns : List Notice) :
    InStep R Eq (notes ns : Act σ ε Unit) (notes ns : Act τ ε Unit) := by
  induction ns with
  | nil => exact inStep_pure rfl
  | cons n ns ih => exact (inStep_note n).bind fun _ _ _ => ih

/-- By induction on the steps; at each of them both watches react alike and go on in step. -/
theorem inStep_followSteps (react : κ → WatchEvent α → Reaction κ β) (closes : Bool)
    {steps : List (Step σ α)} {steps' : List (Step τ α)}
    (h : List.Forall₂ (Step.Alike R) steps steps') (k : κ) :
    InStep R Eq (followSteps react closes k steps : Act σ ε (Option β))
      (followSteps react closes k steps' : Act τ ε (Option β)) := by
  induction h generalizing k with
  | nil =>
    rw [followSteps, followSteps]
    cases closes with
    | true => exact inStep_pure rfl
    | false => exact inStep_lift _
  | cons hstep _ ih =>
    rw [followSteps, followSteps, ← hstep.item]
    refine (inStep_arrive hstep).bind fun _ _ _ => ?_
    split
    · exact ih k
    · exact inStep_lift _
    · refine (inStep_notes _).bind fun _ _ _ => ?_
      split
      · exact ih _
      · exact inStep_pure rfl

/-- **Watches that deliver the same in step are followed in step.** -/
theorem inStep_follow (react : κ → WatchEvent α → Reaction κ β) (k : κ) {feed : Feed σ α}
    {feed' : Feed τ α} (hsteps : List.Forall₂ (Step.Alike R) feed.steps feed'.steps)
    (hcloses : feed.closes = feed'.closes) :
    InStep R Eq (follow react k feed : Act σ ε (Option β))
      (follow react k feed' : Act τ ε (Option β)) := by
  unfold follow
  rw [← hcloses]
  exact inStep_followSteps react feed.closes hsteps k

/-! ### Workers -/

theorem InStep.onWorker {x : Act σ LifecycleError α} {y : Act τ LifecycleError β}
    (h : InStep R r x y) (stage : String) : InStep R r (x.onWorker stage) (y.onWorker stage) := by
  intro s t hst
  obtain ⟨hentries, hending, hlength⟩ := h s t hst
  refine ⟨?_, ?_, by rw [length_onWorker, length_onWorker, hlength]⟩
  · rw [entries_onWorker, entries_onWorker, Course.entries_spawn, Course.entries_spawn, hentries,
      hlength, hending.isOver_eq]
  · rw [ending_onWorker, ending_onWorker]
    generalize (x s).ending = e at hending
    generalize (y t).ending = e' at hending
    cases hending with
    | returned related => exact .returned related
    | failed error => exact .failed error
    | panicked message => exact .failed _
    | stuck => exact .stuck

theorem Alike.detached {x : Act σ Empty Unit} {y : Act τ Empty Unit} (h : Alike view R Eq x y)
    (stage : String) : Alike view R Eq (x.detached stage : Act σ ε Unit) (y.detached stage) := by
  intro s t hst
  obtain ⟨hseen, hending⟩ := h s t hst
  refine ⟨?_, ?_⟩
  · rw [seen_detached_eq, seen_detached_eq, Course.seen_spawn, Course.seen_spawn, hseen,
      hending.isOver_eq]
    generalize (x s).ending = e at hending
    generalize (y t).ending = e' at hending
    cases hending <;> rfl
  · rw [ending_detached, ending_detached]
    generalize (x s).ending = e at hending
    generalize (y t).ending = e' at hending
    cases hending with
    | returned related => exact .returned related
    | failed error => exact .returned ⟨rfl, hst⟩
    | panicked message => exact .returned ⟨rfl, hst⟩
    | stuck => exact .stuck

end Act

end BatchRun
