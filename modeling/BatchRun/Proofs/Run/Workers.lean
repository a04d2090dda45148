import BatchRun.Proofs.Run.Connections
import BatchRun.Proofs.Run.Tasks

/-!
# The workers of a run

Every connection of a run is opened by a worker. Each worker is to be aborted with its handle, comes
back before the run goes on, and has nothing open any more when it does.

* `Entry.IsOwn`: what the caller does itself, apart from workers;
* `Course.Guards`: the workers of an activity; **`Course.Guards.bind`**, `Course.guards_spawn`;
* **`execute_guards`**: the workers of a whole run.
-/

namespace BatchRun

variable {σ ε ε' α β : Type}

/-- The caller does it itself, and has no connection to do it with. -/
structure Entry.IsOwn (e : Entry) : Prop where
  owner : e.onWorker = false
  plain : e.deed.isPlain = true
  hold : ∀ held, e.deed.hold held = held

namespace Course

/-- Every worker is guarded, and none is at work any more when the activity ends. -/
def Guards (c : Course ε α) : Prop :=
  ∃ w, Guarded none c.entries w ∧ (c.ending.isOver = true → w = none)

variable {c : Course ε α}

theorem guards_of_own (h : ∀ e ∈ c.entries, e.IsOwn) : c.Guards := by
  refine ⟨none, ?_, fun _ => rfl⟩
  generalize c.entries = es at h
  induction es with
  | nil => exact .nil
  | cons e es ih =>
    obtain ⟨hfirst, hothers⟩ := List.forall_mem_cons.1 h
    exact .own hfirst.owner hfirst.plain hfirst.hold (ih hothers)

theorem guards_of_nil (h : c.entries = []) : c.Guards :=
  guards_of_own fun e he => by rw [h] at he; cases he

/-- **The workers of the first activity are back before the second one starts.** -/
theorem Guards.bind (h : c.Guards) {f : α → Course ε β}
    (hf : ∀ a, c.ending = .returned a → (f a).Guards) : (c.bind f).Guards := by
  obtain ⟨w, hguarded, hback⟩ := h
  cases hending : c.ending with
  | returned a =>
    obtain ⟨w', hguarded', hback'⟩ := hf a hending
    rw [hback (by rw [hending]; rfl)] at hguarded
    refine ⟨w', ?_, ?_⟩
    · rw [entries_bind, hending]
      exact hguarded.append (hguarded'.later _)
    · rw [ending_bind, hending]
      exact hback'
  | _ =>
    refine ⟨w, ?_, ?_⟩
    · rw [entries_bind, hending]
      simpa [Ending.value?] using hguarded
    · rw [ending_bind, hending]
      rw [hending] at hback
      exact hback

theorem Guards.append (h : c.Guards) (hover : c.ending.isOver = true) {e : Entry} (he : e.IsOwn)
    (ending : Ending ε' β) : (⟨c.entries ++ [e], ending, c.length⟩ : Course ε' β).Guards := by
  obtain ⟨w, hguarded, hback⟩ := h
  rw [hback hover] at hguarded
  exact ⟨none, hguarded.append (.own he.owner he.plain he.hold .nil), fun _ => rfl⟩

theorem guards_spawn (h : c.ending.isOver = true → Hold.openAfter (c.seen Deed.hold?) = []) :
    (spawn .abortOnDrop c : Course ε' _).Guards := by
  have hwork := Guarded.byWorker c.entries []
  change Guarded (some []) _ (some (Entry.stillOpen c.entries)) at hwork
  have hover : (spawn .abortOnDrop c : Course ε' _).ending.isOver = c.ending.isOver := by
    rw [ending_spawn]
    cases c.ending <;> rfl
  rw [Guards, entries_spawn, hover]
  cases hends : c.ending.isOver with
  | false => exact ⟨_, .spawn rfl rfl (hwork.append .nil), nofun⟩
  | true =>
    rw [Entry.stillOpen_eq, show Hold.openAfter (Entry.shown Deed.hold? c.entries) = [] from
      h hends] at hwork
    exact ⟨none, .spawn rfl rfl (hwork.append (.join rfl rfl .nil)), fun _ => rfl⟩

end Course

namespace Act

/-- From any state every worker is guarded, and back at the end. -/
def Guards (x : Act σ ε α) : Prop := ∀ s, (x s).Guards

theorem Guards.bind {x : Act σ ε α} {f : α → Act σ ε β} (hx : Guards x) (hf : ∀ a, Guards (f a)) :
    Guards (x >>= f) := fun s => (hx s).bind fun p _ => hf p.1 p.2

theorem guards_pure (a : α) : Guards (Pure.pure a : Act σ ε α) :=
  fun _ => Course.guards_of_nil rfl

theorem guards_fail (error : ε) : Guards (fail error : Act σ ε α) :=
  fun _ => Course.guards_of_nil rfl

theorem guards_deed {d : Deed} (hplain : d.isPlain = true) (hhold : ∀ held, d.hold held = held) :
    (Course.deed d : Course ε Unit).Guards :=
  Course.guards_of_own (List.forall_mem_singleton.2 ⟨rfl, hplain, hhold⟩)

theorem guards_note (notice : Notice) : Guards (note notice : Act σ ε Unit) := by
  refine fun s => Course.guards_of_own ?_
  rw [note_apply]
  exact List.forall_mem_singleton.2 ⟨rfl, rfl, fun _ => rfl⟩

theorem guards_forward (lines : List (Timed String)) :
    (Reply.forward lines : Course ε Unit).Guards := by
  induction lines with
  | nil => exact Course.guards_of_nil rfl
  | cons line lines ih =>
    refine Course.Guards.bind (Course.guards_of_nil rfl) fun _ _ => ?_
    exact (guards_deed rfl fun _ => rfl).bind fun _ _ => ih

theorem guards_ask (call : Call) (reply : σ → Reply σ α) :
    Guards (ask call reply : Act σ ε _) := by
  intro s
  refine (guards_deed rfl fun _ => rfl).bind fun _ _ => ?_
  refine Course.Guards.bind ?_ fun _ _ =>
    (guards_deed rfl fun _ => rfl).bind fun _ _ => Course.guards_of_nil rfl
  refine Course.Guards.bind (Course.guards_of_own fun e he => ?_) fun _ _ =>
    (guards_forward _).bind fun _ _ => Course.guards_of_nil rfl
  obtain ⟨remark, _, rfl⟩ := List.mem_map.1 he
  cases remark with
  | note n => exact ⟨rfl, rfl, fun _ => rfl⟩
  | request r => exact ⟨rfl, rfl, fun _ => rfl⟩

theorem inherited_guards : Inherited fun _ _ (x : Act σ _ _) => Guards x where
  pure := guards_pure
  bind := Guards.bind
  fail := guards_fail
  note := guards_note
  ask := guards_ask

theorem guards_spawn {x : Act σ ε α} (h : ∀ s, (x s).ending.isOver = true →
    Hold.openAfter ((x s).seen Deed.hold?) = []) :
    Guards (spawn .abortOnDrop x : Act σ ε' _) := by
  refine fun s => (Course.guards_spawn (h s)).bind fun back _ => ?_
  rcases back with message | error | ⟨value, t⟩
  · exact Course.guards_of_nil rfl
  · exact Course.guards_of_nil rfl
  · exact Course.guards_of_nil rfl

theorem guards_onWorker {x : Act σ LifecycleError α} (h : ∀ s, (x s).ending.isOver = true →
    Hold.openAfter ((x s).seen Deed.hold?) = []) (stage : String) :
    Guards (onWorker stage x) := by
  refine (guards_spawn h).bind fun back => ?_
  rcases back with message | error | value
  · exact guards_fail _
  · exact guards_fail _
  · exact guards_pure _

theorem guards_detached {x : Act σ Empty Unit} (h : ∀ s, (x s).ending.isOver = true →
    Hold.openAfter ((x s).seen Deed.hold?) = []) (stage : String) :
    Guards (detached stage x : Act σ ε Unit) := by
  refine (guards_spawn h).bind fun back => ?_
  rcases back with message | _
  · exact guards_note _
  · exact guards_pure _

end Act

/-! ## The whole run -/

theorem guards_settle (job : JobIdentity) {c : Course LifecycleError RunResult} (h : c.Guards) :
    (settle job c).Guards := by
  have hnote (notice : Notice) : (⟨c.length, false, .note notice⟩ : Entry).IsOwn :=
    ⟨rfl, rfl, fun _ => rfl⟩
  unfold settle
  cases hending : c.ending with
  | returned result => exact h.append (by rw [hending]; rfl) (hnote _) _
  | failed error => exact h.append (by rw [hending]; rfl) (hnote _) _
  | _ =>
    obtain ⟨w, hguarded, hback⟩ := h
    rw [hending] at hback
    exact ⟨w, hguarded, hback⟩

theorem guards_monitor (client : Client σ) (config : JobConfig) (job : JobIdentity) :
    Act.Guards (monitor client config job) := by
  refine Act.inherited_guards.monitor client config job
    (fun limit => Act.guards_onWorker (fun s => (completes_podStart client job limit s).settled) _)
    (fun pod container => Act.guards_detached (fun s hover => ?_) _)
    (fun limit => Act.guards_onWorker (fun s => (completes_jobEnd client job limit s).settled) _)
  rw [seen_followOutput_hold, if_pos hover]
  rfl

/-- **In a whole run every worker is guarded, and brings nothing back that is still open.** -/
theorem execute_guards (client : Client σ) (config : JobConfig) (listener : Listener) (s : σ) :
    (execute client config listener s).Guards := by
  unfold execute
  cases config.manifest with
  | error e => exact Course.guards_of_nil rfl
  | ok manifest =>
    refine Course.Guards.bind (Act.guards_deed rfl fun _ => rfl) fun _ _ => ?_
    refine (Act.inherited_guards.submit client manifest _ s).bind fun p _ => ?_
    refine Course.Guards.bind ?_ fun _ _ => ?_
    · cases listener with
      | nobody => exact Course.guards_of_nil rfl
      | listening => exact Act.guards_deed rfl fun _ => rfl
      | gone => exact Act.guards_deed rfl fun _ => rfl
    · exact guards_settle p.1 ((guards_monitor client config p.1 p.2).bind fun _ _ =>
        Course.guards_of_nil rfl)

end BatchRun
