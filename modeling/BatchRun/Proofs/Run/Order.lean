import BatchRun.Proofs.Run.Outcome
import Mathlib.Data.List.TakeWhile

/-!
# The order of time

A run does one thing after another: its deeds come in the order of their times, and none comes
after its end.

* `Entry.Sorted`, `Course.Ordered`; **`Course.Ordered.bind`**: activities in a row keep the order;
* **`execute_ordered`**: so does a whole run.
-/

namespace BatchRun

variable {σ ε ε' α β κ : Type}

/-- The entries come in the order of their times. -/
def Entry.Sorted (es : List Entry) : Prop := es.Pairwise fun (a b : Entry) => a.time ≤ b.time

namespace Course

/-- Deeds come in the order of their times, and none comes after the end. -/
structure Ordered (c : Course ε α) : Prop where
  sorted : Entry.Sorted c.entries
  bounded : ∀ e ∈ c.entries, e.time ≤ c.length

variable {c : Course ε α}

theorem ordered_of_nil (h : c.entries = []) : c.Ordered where
  sorted := by
    rw [h]
    exact List.Pairwise.nil
  bounded := by
    rw [h]
    exact List.forall_mem_nil _

theorem ordered_of_time (time : Nat) (h : ∀ e ∈ c.entries, e.time = time)
    (hlength : time ≤ c.length) : c.Ordered where
  sorted := by
    refine List.Pairwise.imp_of_mem (R := fun _ _ => True) ?_
      (List.pairwise_of_forall fun _ _ => trivial)
    intro a b ha hb _
    exact Nat.le_of_eq ((h a ha).trans (h b hb).symm)
  bounded := fun e he => h e he ▸ hlength

theorem Ordered.bind (h : c.Ordered) {f : α → Course ε β}
    (hf : ∀ a, c.ending = .returned a → (f a).Ordered) : (c.bind f).Ordered := by
  cases hending : c.ending with
  | returned a =>
    have hentries : (c.bind f).entries = c.entries ++ (f a).entries.map (Entry.later c.length) := by
      rw [entries_bind, hending]
      rfl
    have hlength : (c.bind f).length = c.length + (f a).length := by
      rw [length_bind, hending]
      rfl
    obtain ⟨hsorted, hbounded⟩ := hf a hending
    refine ⟨?_, ?_⟩
    · rw [hentries]
      refine List.pairwise_append.2 ⟨h.sorted, ?_, ?_⟩
      · rw [List.pairwise_map]
        exact hsorted.imp fun hab => Nat.add_le_add_left hab _
      · intro a ha b hb
        obtain ⟨b', _, rfl⟩ := List.mem_map.1 hb
        exact Nat.le_trans (h.bounded a ha) (Nat.le_add_right _ _)
    · rw [hentries, hlength]
      intro e he
      rcases List.mem_append.1 he with he | he
      · exact Nat.le_trans (h.bounded e he) (Nat.le_add_right _ _)
      · obtain ⟨e', he', rfl⟩ := List.mem_map.1 he
        exact Nat.add_le_add_left (hbounded e' he') _
  | _ =>
    refine ⟨?_, ?_⟩
    · rw [entries_bind, hending]
      simpa [Ending.value?] using h.sorted
    · rw [entries_bind, length_bind, hending]
      simpa [Ending.value?] using h.bounded

theorem Ordered.append (h : c.Ordered) {es : List Entry} (hes : ∀ e ∈ es, e.time = c.length)
    (ending : Ending ε' β) : (⟨c.entries ++ es, ending, c.length⟩ : Course ε' β).Ordered where
  sorted := by
    refine List.pairwise_append.2 ⟨h.sorted, ?_, fun a ha b hb => (hes b hb).symm ▸ h.bounded a ha⟩
    exact (ordered_of_time (c := ⟨es, ending, c.length⟩) c.length hes (Nat.le_refl _)).sorted
  bounded := by
    intro e he
    rcases List.mem_append.1 he with he | he
    · exact h.bounded e he
    · exact Nat.le_of_eq (hes e he)

theorem Ordered.held (h : c.Ordered) (connection : Connection) : (c.held connection).Ordered := by
  unfold Course.held
  dsimp only
  refine ⟨List.pairwise_cons.2 ⟨fun _ _ => Nat.zero_le _, ?_⟩, ?_⟩
  · refine (h.append ?_ c.ending).sorted
    split <;> simp
  · intro e he
    rcases List.mem_cons.1 he with rfl | he
    · exact Nat.zero_le _
    · refine (h.append ?_ c.ending).bounded e he
      split <;> simp

theorem time_releases {time : Nat} {held : List Connection} {e : Entry}
    (he : e ∈ Entry.releases time held) : e.time = time := by
  obtain ⟨_, _, rfl⟩ := List.mem_map.1 he
  rfl

theorem Ordered.within (h : c.Ordered) (limit : Nat) (late : Notice) (error : ε) :
    (c.within limit late error).Ordered := by
  unfold Course.within
  split
  · exact h
  · dsimp only
    have hkept : (⟨c.entries.takeWhile fun (e : Entry) => decide (e.time ≤ limit), c.ending,
        limit⟩ : Course ε α).Ordered := by
      refine ⟨h.sorted.sublist (List.takeWhile_sublist _), fun e he => ?_⟩
      have hkept := List.mem_takeWhile_imp (show e ∈ c.entries.takeWhile _ from he)
      exact of_decide_eq_true hkept
    rw [List.append_assoc]
    refine hkept.append (fun e he => ?_) _
    rcases List.mem_append.1 he with he | he
    · exact time_releases he
    · rw [List.mem_singleton.1 he]

theorem Ordered.spawn (h : c.Ordered) (handle : Handle) :
    (Course.spawn handle c : Course ε' _).Ordered := by
  have hworker : (⟨c.entries.map Entry.byWorker, c.ending, c.length⟩ : Course ε α).Ordered := by
    refine ⟨List.pairwise_map.2 h.sorted, fun e he => ?_⟩
    obtain ⟨e', he', rfl⟩ := List.mem_map.1 he
    exact h.bounded e' he'
  have hback : (⟨c.entries.map Entry.byWorker ++
      if c.ending.isOver then [⟨c.length, false, .joined⟩] else [], c.ending, c.length⟩ :
        Course ε α).Ordered := by
    refine hworker.append (fun e he => ?_) _
    split at he
    · rw [List.mem_singleton.1 he]
    · cases he
  refine ⟨?_, ?_⟩
  · rw [entries_spawn]
    exact List.pairwise_cons.2 ⟨fun _ _ => Nat.zero_le _, hback.sorted⟩
  · rw [entries_spawn, length_spawn]
    exact List.forall_mem_cons.2 ⟨Nat.zero_le _, hback.bounded⟩

end Course

namespace Act

/-- From any state the activity keeps the order of time. -/
def Ordered (x : Act σ ε α) : Prop := ∀ s, (x s).Ordered

theorem Ordered.bind {x : Act σ ε α} {f : α → Act σ ε β} (hx : Ordered x)
    (hf : ∀ a, Ordered (f a)) : Ordered (x >>= f) :=
  fun s => (hx s).bind fun p _ => hf p.1 p.2

theorem ordered_pure (a : α) : Ordered (Pure.pure a : Act σ ε α) :=
  fun _ => Course.ordered_of_nil rfl

theorem ordered_lift {c : Course ε α} (h : c.Ordered) : Ordered (lift c : Act σ ε α) :=
  fun s => h.bind fun a _ => ordered_pure a s

theorem ordered_note (notice : Notice) : Ordered (note notice : Act σ ε Unit) :=
  ordered_lift (Course.ordered_of_time 0 (by simp [Course.note, Course.deed])
    (Nat.zero_le _))

theorem ordered_fail (error : ε) : Ordered (fail error : Act σ ε α) :=
  fun _ => Course.ordered_of_nil rfl

theorem ordered_forward (lines : List (Timed String)) :
    (Reply.forward lines : Course ε Unit).Ordered := by
  induction lines with
  | nil => exact Course.ordered_of_nil rfl
  | cons line lines ih =>
    refine Course.Ordered.bind (Course.ordered_of_nil rfl) fun _ _ => ?_
    exact (Course.ordered_of_time 0 (by simp [Course.deed]) (Nat.zero_le _)).bind fun _ _ => ih

theorem ordered_course (r : Reply σ α) : (r.course : Course ε _).Ordered := by
  unfold Reply.course
  refine Course.Ordered.bind (Course.ordered_of_time 0 (fun e he => ?_) (Nat.zero_le _))
    fun _ _ => ?_
  · obtain ⟨_, _, rfl⟩ := List.mem_map.1 he
    rfl
  · exact Course.Ordered.bind (ordered_forward r.lines) fun _ _ => Course.ordered_of_nil rfl

theorem ordered_ask (call : Call) (reply : σ → Reply σ α) :
    Ordered (ask call reply : Act σ ε _) := by
  have hdeed (d : Deed) : (Course.deed d : Course ε Unit).Ordered :=
    Course.ordered_of_time 0 (by simp [Course.deed]) (Nat.zero_le _)
  exact fun s => (hdeed _).bind fun _ _ => (ordered_course (reply s)).bind fun _ _ =>
    (hdeed _).bind fun _ _ => Course.ordered_of_nil rfl

theorem inherited_ordered : Inherited fun _ _ (x : Act σ _ _) => Ordered x where
  pure := ordered_pure
  bind := Ordered.bind
  fail := ordered_fail
  note := ordered_note
  ask := ordered_ask

theorem Ordered.held {x : Act σ ε α} (h : Ordered x) (connection : Connection) :
    Ordered (x.held connection) := fun s => (h s).held connection

theorem Ordered.within {x : Act σ ε α} (h : Ordered x) (limit : Nat) (late : Notice) (error : ε) :
    Ordered (x.within limit late error) := fun s => (h s).within limit late error

theorem Ordered.spawn {x : Act σ ε α} (h : Ordered x) (handle : Handle) :
    Ordered (spawn handle x : Act σ ε' _) := by
  refine fun s => ((h s).spawn handle).bind fun back _ => ?_
  rcases back with message | error | ⟨value, t⟩
  · exact Course.ordered_of_nil rfl
  · exact Course.ordered_of_nil rfl
  · exact Course.ordered_of_nil rfl

theorem Ordered.onWorker {x : Act σ LifecycleError α} (h : Ordered x) (stage : String) :
    Ordered (x.onWorker stage) := by
  refine (h.spawn .abortOnDrop).bind fun back => ?_
  rcases back with message | error | value
  · exact ordered_fail _
  · exact ordered_fail _
  · exact ordered_pure _

theorem Ordered.detached {x : Act σ Empty Unit} (h : Ordered x) (stage : String) :
    Ordered (x.detached stage : Act σ ε Unit) := by
  refine (h.spawn .abortOnDrop).bind fun back => ?_
  rcases back with message | _
  · exact ordered_note _
  · exact ordered_pure _

theorem ordered_arrive (step : Step σ α) : Ordered (arrive step : Act σ ε Unit) := by
  intro s
  refine Course.ordered_of_time step.wait ?_ (Nat.le_refl _)
  intro e he
  obtain ⟨_, _, rfl⟩ := List.mem_map.1 he
  rfl

theorem ordered_notes (ns : List Notice) : Ordered (notes ns : Act σ ε Unit) := by
  induction ns with
  | nil => exact ordered_pure ()
  | cons n ns ih => exact (ordered_note n).bind fun _ => ih

theorem ordered_followSteps (react : κ → WatchEvent α → Reaction κ β) (closes : Bool) (k : κ)
    (steps : List (Step σ α)) : Ordered (followSteps react closes k steps : Act σ ε _) := by
  induction steps generalizing k with
  | nil =>
    rw [followSteps]
    cases closes with
    | true => exact ordered_pure none
    | false => exact ordered_lift (Course.ordered_of_nil rfl)
  | cons step rest ih =>
    rw [followSteps]
    refine (ordered_arrive step).bind fun _ => ?_
    split
    · exact ih k
    · exact ordered_lift (Course.ordered_of_nil rfl)
    · refine (ordered_notes _).bind fun _ => ?_
      split
      · exact ih _
      · exact ordered_pure _

end Act

/-! ## The run in the order of time -/

section Stages

variable (client : Client σ) (job : JobIdentity)

theorem ordered_firstStarted : Act.Ordered (firstStarted client job : Act σ ε _) := by
  refine (Act.ordered_note _).bind fun _ => (Act.ordered_ask _ _).bind fun answer => ?_
  cases answer with
  | error f => exact (Act.ordered_note _).bind fun _ => Act.ordered_pure _
  | ok feed => exact (Act.ordered_followSteps _ _ _ _).held _

theorem ordered_podStart (limit : Nat) : Act.Ordered (podStart client job limit) := by
  refine Act.Ordered.within ((ordered_firstStarted client job).bind fun result => ?_) _ _ _
  cases result with
  | none => exact (Act.ordered_note _).bind fun _ => Act.ordered_fail _
  | some pod => exact Act.ordered_pure pod

theorem ordered_jobEnd (limit : Nat) : Act.Ordered (jobEnd client job limit) := by
  refine Act.Ordered.within ?_ _ _ _
  refine (Act.ordered_note _).bind fun _ => (Act.ordered_ask _ _).bind fun answer => ?_
  cases answer with
  | error f => exact Act.ordered_fail _
  | ok feed =>
    refine ((Act.ordered_followSteps _ _ _ _).held _).bind fun result => ?_
    rcases result with _ | error | finished
    · exact (Act.ordered_note _).bind fun _ => Act.ordered_fail _
    · exact Act.ordered_fail _
    · exact Act.ordered_pure _

theorem ordered_followOutput (pod : String) (container : Option String) :
    Act.Ordered (followOutput client job pod container : Act σ ε _) := by
  refine (Act.ordered_note _).bind fun _ => ((Act.ordered_ask _ _).held _).bind fun answer => ?_
  cases answer with
  | error f => exact Act.ordered_note _
  | ok count => exact Act.ordered_note _

theorem ordered_settle {c : Course LifecycleError RunResult} (h : c.Ordered) :
    (settle job c).Ordered := by
  unfold settle
  split
  · refine h.append ?_ _
    intro e he
    rw [List.mem_singleton.1 he]
  · refine h.append ?_ _
    intro e he
    rw [List.mem_singleton.1 he]
  · exact ⟨h.sorted, h.bounded⟩
  · exact ⟨h.sorted, h.bounded⟩

end Stages

theorem execute_ordered (client : Client σ) (config : JobConfig) (listener : Listener) (s : σ) :
    (execute client config listener s).Ordered := by
  have htell (job : JobIdentity) : (listener.tell job : Course RunError Unit).Ordered := by
    refine Course.ordered_of_time 0 ?_ (Nat.zero_le _)
    cases listener <;> simp [Listener.tell, Course.pure, Course.deed, Course.note]
  unfold execute
  cases config.manifest with
  | error e => exact Course.ordered_of_nil rfl
  | ok manifest =>
    refine Course.Ordered.bind (Course.ordered_of_time 0
      (by simp [Course.note, Course.deed]) (Nat.zero_le _)) fun _ _ => ?_
    refine (Act.inherited_ordered.submit client manifest _ s).bind fun p _ => ?_
    refine (htell p.1).bind fun _ _ => ?_
    have hmonitor : Act.Ordered (monitor client config p.1) :=
      Act.inherited_ordered.monitor client config p.1
        (fun limit => (ordered_podStart client p.1 limit).onWorker _)
        (fun pod container => (ordered_followOutput client p.1 pod container).detached _)
        (fun limit => (ordered_jobEnd client p.1 limit).onWorker _)
    exact ordered_settle p.1 ((hmonitor p.2).bind fun _ _ => Course.ordered_of_nil rfl)

end BatchRun
