import BatchRun.Proofs.Run.Handover
import BatchRun.Proofs.Run.Workers

/-!
# Runs whose caller is dropped

The caller of a run may be dropped at any point of it. What the run has called and written by then
is where the whole run starts, and nothing is called or written after that: the worker that is at
work is aborted, and once it has been dropped, too, no connection is left open.

* `Run.Underway.oneAtATime`, `Run.Dropped.follows_plan`: the connections of a run before and
  after a drop;
* **`execute_connections`**: never two connections, and none left open, dropped or not;
* `Run.Truncates`: what a run that is dropped keeps of the whole one;
* `Run.AtRest`, `Client.HasNamed`: the caller waits, and the server has named the job;
* **`execute_drop`**: a drop truncates a run.
-/

namespace BatchRun

variable {σ ε α γ : Type}

namespace Run

variable {es kept : List Entry} {since : Nat} {r : Run} {view : Deed → Option γ}

theorem Underway.starts (h : Underway es r) : r.done <+: es :=
  ⟨r.pending, h.done_append_pending⟩

theorem Underway.seen_past (h : Underway es r) (view : Deed → Option γ) :
    r.past.seen view <+: Entry.shown view es := h.starts.filterMap _

theorem Dropped.seen_past (h : Dropped kept since r)
    (hreleased : ∀ connection, view (.released connection) = none) :
    r.past.seen view = Entry.shown view kept := by
  obtain ⟨time, held, -, hdone, -⟩ := h.exists_done_eq
  rw [Course.seen, past, hdone, Entry.shown_append, Entry.shown_releases hreleased,
    List.append_nil]

/-! ## Connections -/

variable {stream : Bool}

theorem Underway.oneAtATime (h : Underway es r)
    (hplan : Entry.shown Deed.hold? es <+: holdPlan stream) : r.past.OneAtATime stream :=
  Course.oneAtATime_of_prefix ((h.seen_past _).trans hplan)

theorem Underway.releasesAll (h : Underway es r)
    (hplan : Entry.shown Deed.hold? es <+: holdPlan stream) (halone : r.worker = none) :
    r.past.ReleasesAll := by
  refine Course.releasesAll_of_prefix ((h.seen_past _).trans hplan) ?_
  rw [← h.stillOpen_of_alone halone, Entry.stillOpen_eq]
  rfl

theorem Dropped.seen_hold (h : Dropped kept since r) : ∃ held,
    r.past.seen Deed.hold? = Entry.shown Deed.hold? kept ++ held.map .released ∧
      (held = [] ∨ held = Hold.openAfter (Entry.shown Deed.hold? kept)) ∧
      (r.worker = none → held = Hold.openAfter (Entry.shown Deed.hold? kept)) := by
  obtain ⟨time, held, -, hdone, hheld, hover⟩ := h.exists_done_eq
  rw [Entry.stillOpen_eq] at hheld hover
  refine ⟨held, ?_, hheld, hover⟩
  rw [Course.seen, past, hdone, Entry.shown_append, Entry.shown_releases_hold]

/-- To release what is open goes on with the plan, wherever that is left. -/
theorem Dropped.follows_plan (h : Dropped kept since r)
    (hplan : Entry.shown Deed.hold? kept <+: holdPlan stream) :
    r.past.seen Deed.hold? <+: holdPlan stream := by
  obtain ⟨held, hseen, hheld, -⟩ := h.seen_hold
  rw [hseen]
  rcases hheld with rfl | rfl
  · rwa [List.map_nil, List.append_nil]
  · exact closable_holdPlan stream _ hplan

theorem Dropped.releasesAll (h : Dropped kept since r)
    (hplan : Entry.shown Deed.hold? kept <+: holdPlan stream) (hover : r.worker = none) :
    r.past.ReleasesAll := by
  refine Course.releasesAll_of_prefix (h.follows_plan hplan) ?_
  obtain ⟨held, hseen, -, hall⟩ := h.seen_hold
  rw [hseen, hall hover]
  exact Hold.openAfter_released _

end Run

theorem underway_of_reaches {client : Client σ} {config : JobConfig} {listener : Listener} {s : σ}
    {r : Run} (h : Run.Reaches (.start (execute client config listener s).entries) r) :
    Run.Underway (execute client config listener s).entries r := by
  obtain ⟨w, hguarded, -⟩ := execute_guards client config listener s
  exact (Run.underway_start hguarded).of_reaches h

/-- **At no moment of a run are two connections open, and none is left open when it is over. The
same holds of a run whose caller is dropped at some point, once the worker that it leaves behind has
been dropped, as it is in the end.** -/
theorem execute_connections (client : Client σ) (config : JobConfig) (listener : Listener) (s : σ) :
    (execute client config listener s).OneAtATime config.streamOutput ∧
    ((execute client config listener s).ending.isOver = true →
      (execute client config listener s).ReleasesAll) ∧
    ∀ r, Run.Reaches (.start (execute client config listener s).entries) r →
      r.past.OneAtATime config.streamOutput ∧ (r.worker = none → r.past.ReleasesAll) ∧
      ∀ r', Run.Reaches r.drop r' →
        r'.past.OneAtATime config.streamOutput ∧ (r'.worker = none → r'.past.ReleasesAll) ∧
        ∃ r'', Run.Reaches r' r'' ∧ r''.worker = none := by
  have hfollows := follows_execute client config listener s
  refine ⟨Course.oneAtATime_of_prefix hfollows.starts,
    fun hover => Course.releasesAll_of_prefix hfollows.starts (hfollows.settled hover), ?_⟩
  intro r hr
  have hunderway := underway_of_reaches hr
  refine ⟨hunderway.oneAtATime hfollows.starts, hunderway.releasesAll hfollows.starts, ?_⟩
  intro r' hr'
  have hdropped := hunderway.drop.of_reaches hr'
  have hkept := (hunderway.seen_past Deed.hold?).trans hfollows.starts
  exact ⟨Course.oneAtATime_of_prefix (hdropped.follows_plan hkept), hdropped.releasesAll hkept,
    hdropped.exists_teardown⟩

/-- A cluster on which a job exits with 3, after a log of two lines that come a second apart. -/
def Client.slowLog : Client Unit :=
  { (Script.exiting 3).client with
    followLogs := fun _ _ _ _ => ⟨[], [⟨1000, "one"⟩, ⟨1000, "two"⟩], 0, .returns (.ok 2) ()⟩ }

/-- It is dropped between the two lines. -/
theorem execute_connections_slowLog :
    (execute Client.slowLog .standard .listening ()).ending.isOver = true ∧
    (execute Client.slowLog .standard .listening ()).ReleasesAll ∧
    ∃ r r', Run.Reaches (.start (execute Client.slowLog .standard .listening ()).entries) r ∧
      r.past.openings = [.podWatch, .log] ∧ r.past.releases = [.podWatch] ∧
      Run.Reaches r.drop r' ∧ r'.worker = none ∧ r'.past.ReleasesAll := by
  obtain ⟨-, hwhole, hdropped⟩ := execute_connections Client.slowLog .standard .listening ()
  have hover : (execute Client.slowLog .standard .listening ()).ending.isOver = true := by
    decide +kernel
  have hreaches := (Run.timely_start
    (execute_ordered Client.slowLog .standard .listening ()).sorted).reaches_turns 20
  obtain ⟨-, -, hafter⟩ := hdropped _ hreaches
  obtain ⟨r', hr', hgone⟩ := (hafter _ .refl).2.2
  exact ⟨hover, hwhole hover, _, r', hreaches, by decide +kernel, by decide +kernel, hr', hgone,
    (hafter r' hr').2.1 hgone⟩

/-! ## What a run keeps -/

namespace Run

/-- At some point of a course its caller is dropped. What has been done by then is a start of the
course, which could have gone on from there to its end, and after that there are only releases. -/
structure Truncates (c : Course ε α) (r r' : Run) : Prop where
  calls : r'.past.calls <+: c.calls
  lines : r'.past.lines <+: c.lines
  goesOn : ∃ r'', Reaches r r'' ∧ r''.done = c.entries
  splits : r.done ++ r.pending = c.entries
  past : ∀ e ∈ r.done, e.time ≤ r.now
  due : ∀ e ∈ r.pending, r.now ≤ e.time
  after : ∃ released, r'.done = r.done ++ released ∧
    ∀ e ∈ released, r.now ≤ e.time ∧ ∃ connection, e.deed = .released connection

theorem Underway.truncates {c : Course ε α} {r r' : Run} (h : Underway c.entries r)
    (htimely : Timely r) (hdropped : Dropped r.done r.now r') : Truncates c r r' where
  calls := by
    rw [Course.calls_eq_seen, hdropped.seen_past fun _ => rfl]
    exact h.seen_past _
  lines := by
    rw [Course.lines_eq_seen, hdropped.seen_past fun _ => rfl]
    exact h.seen_past _
  goesOn := h.exists_done htimely
  splits := h.done_append_pending
  past := htimely.past
  due := htimely.due
  after := by
    obtain ⟨time, held, hsince, hdone, -⟩ := hdropped.exists_done_eq
    refine ⟨_, hdone, fun e he => ?_⟩
    obtain ⟨connection, _, rfl⟩ := List.mem_map.1 he
    exact ⟨hsince, connection, rfl⟩

theorem Underway.onWorker_of_mem_workLeft {es : List Entry} {r : Run} (h : Underway es r)
    {e : Entry} (he : e ∈ r.workLeft) : e.onWorker = true := by
  cases h with
  | alone => cases he
  | attended _ _ _ hwork => exact hwork e he

end Run

/-! ## The identity in a dropped run -/

/-- The caller may be waiting after some entries: it has not begun, or it has made a call that has
not come back, or it has set a worker to work that has not. -/
def Entry.awaits (es : List Entry) : Bool :=
  es.foldl (fun (waits : Bool) (e : Entry) =>
    if e.onWorker then waits
    else
      match e.deed with
      | .call _ | .spawned _ => true
      | .answered _ | .joined => false
      | _ => waits) true

/-- The caller waits, or has nothing left to do. Only then can it be dropped. -/
def Run.AtRest (r : Run) : Prop := r.callerLeft = [] ∨ Entry.awaits r.done = true

/-- The call that comes back. -/
def Deed.answered? : Deed → Option Call
  | .answered c => some c
  | _ => none

/-- By some point the call that creates the job has come back with a name for it. -/
def Client.HasNamed (client : Client σ) (config : JobConfig) (s : σ) (job : JobIdentity)
    (done : List Entry) : Prop :=
  ∃ manifest t, config.manifest = .ok manifest ∧
    client.Creates (targetNamespace manifest config.shortcuts.ns) manifest s job t ∧
    .createJob (targetNamespace manifest config.shortcuts.ns) manifest ∈
      Entry.shown Deed.answered? done

section Started

variable {client : Client σ} {config : JobConfig} {manifest : Document} {job : JobIdentity}
  {s t : σ}

theorem Act.entries_ask_of_returns {call : Call} {reply : σ → Reply σ α}
    {answer : Except Fault α} (h : (reply s).outcome = .returns answer t) :
    (ask call reply s : Course ε _).entries = ⟨0, false, .call call⟩ ::
      ((reply s).course : Course ε _).entries ++ [⟨(reply s).delay, false, .answered call⟩] := by
  have hending : ((reply s).course : Course ε _).ending = .returned (answer, t) := by
    rw [Reply.ending_course, h]
    rfl
  rw [ask, Course.entries_bind]
  show [_] ++ (Course.bind _ _).entries.map (Entry.later 0) = _
  rw [Entry.map_later_zero, Course.entries_bind, hending, Reply.length_course]
  rfl

theorem entries_submit_of_creates {ns : String} (hcreates : client.Creates ns manifest s job t) :
    ∃ asked time, (submit client manifest ns s).entries =
        asked ++ [⟨time, false, .answered (.createJob ns manifest)⟩] ++
          [⟨time, false, .note (.submitted job)⟩] ∧
      Entry.shown Deed.answered? asked = [] := by
  obtain ⟨made, name, houtcome, hname, rfl⟩ := hcreates
  have hending : (Act.ask (.createJob ns manifest) (client.createJob ns manifest) s :
      Course RunError _).ending = .returned (.ok made, t) :=
    Act.ending_ask_eq_returned_iff.2 houtcome
  refine ⟨⟨0, false, .call (.createJob ns manifest)⟩ ::
    ((client.createJob ns manifest s).course : Course RunError _).entries,
    (client.createJob ns manifest s).delay, ?_, ?_⟩
  · rw [submit, Act.bind_apply, Course.entries_bind, hending, Act.length_ask,
      Act.entries_ask_of_returns houtcome]
    simp only [Ending.value?, Option.elim_some, hname]
    rfl
  · rw [Entry.shown_cons]
    refine (Reply.seen_course Deed.answered? (client.createJob ns manifest s)).trans ?_
    exact Reply.filterMap_deeds (fun _ => rfl) (fun _ => rfl) (fun _ => rfl) _

theorem entriesBefore_of_creates
    (hcreates : client.Creates (targetNamespace manifest config.shortcuts.ns) manifest s job t) :
    ∃ asked time, entriesBefore client config manifest s = asked ++
        [⟨time, false, .answered
          (.createJob (targetNamespace manifest config.shortcuts.ns) manifest)⟩] ++
        [⟨time, false, .note (.submitted job)⟩] ∧
      Entry.shown Deed.answered? asked = [] := by
  obtain ⟨asked, time, hentries, hasked⟩ := entries_submit_of_creates hcreates
  refine ⟨_ :: asked, time, by rw [entriesBefore, hentries]; rfl, ?_⟩
  rw [Entry.shown_cons, hasked]
  rfl

theorem seen_started_execute_of_creates (listener : Listener)
    (hmanifest : config.manifest = .ok manifest)
    (hcreates : client.Creates (targetNamespace manifest config.shortcuts.ns) manifest s job t) :
    (execute client config listener s).seen Deed.started? =
      (listener.tell job : Course RunError Unit).seen Deed.started? := by
  rw [Course.seen, entries_execute_of_creates listener hmanifest hcreates, Entry.shown_append,
    Entry.shown_append, started_entriesBefore, started_entriesAfter, Entry.shown_later]
  exact List.append_nil _

/-- Only a run that has been told the name of its job hands an identity over. -/
theorem hasNamed_of_started {listener : Listener} {kept : List Entry}
    (hstarts : kept <+: (execute client config listener s).entries)
    (hstarted : (Entry.shown Deed.started? kept).head? = some job) :
    listener = .listening ∧ client.HasNamed config s job kept := by
  have hseen : ((execute client config listener s).seen Deed.started?).head? = some job := by
    obtain ⟨more, hmore⟩ := hstarts.filterMap fun (e : Entry) => e.deed.started?
    rw [Course.seen, Entry.shown, ← hmore, List.head?_append]
    exact congrArg (Option.or · _) hstarted
  cases hmanifest : config.manifest with
  | error e =>
    rw [seen_execute_of_error hmanifest] at hseen
    cases hseen
  | ok manifest =>
    by_cases hnamed : ∃ job t,
        client.Creates (targetNamespace manifest config.shortcuts.ns) manifest s job t
    · obtain ⟨job', t, hcreates⟩ := hnamed
      rw [seen_started_execute_of_creates listener hmanifest hcreates] at hseen
      cases listener with
      | nobody => cases hseen
      | gone => cases hseen
      | listening =>
        cases hseen
        refine ⟨rfl, manifest, t, hmanifest, hcreates, ?_⟩
        rw [entries_execute_listening hmanifest hcreates] at hstarts
        rcases List.prefix_or_prefix_of_prefix hstarts (List.prefix_append _ _) with hshort | hlong
        · have hnone := hshort.filterMap fun (e : Entry) => e.deed.started?
          rw [← Entry.shown, ← Entry.shown, started_entriesBefore, List.prefix_nil] at hnone
          rw [hnone] at hstarted
          cases hstarted
        · obtain ⟨asked, time, hbefore, -⟩ := entriesBefore_of_creates hcreates
          refine (hlong.filterMap _).subset ?_
          rw [← Entry.shown, hbefore, Entry.shown_append, Entry.shown_append]
          exact List.mem_append_left _ (List.mem_append_right _ (List.mem_singleton.2 rfl))
    · rw [seen_execute_of_not_creates Deed.sparse_started? hmanifest
        fun job t h => hnamed ⟨job, t, h⟩] at hseen
      cases hseen

/-- Between the answer of the server and the handing over the caller never waits. -/
theorem awaits_of_named {kept asked : List Entry} {time : Nat} {call : Call}
    (hkept : kept <+: asked ++ [⟨time, false, .answered call⟩] ++
      [⟨time, false, .note (.submitted job)⟩])
    (hasked : Entry.shown Deed.answered? asked = [])
    (hanswered : call ∈ Entry.shown Deed.answered? kept) : Entry.awaits kept = false := by
  rcases List.prefix_concat_iff.1 hkept with rfl | hkept
  · rw [Entry.awaits, List.foldl_append, List.foldl_append]
    rfl
  rcases List.prefix_concat_iff.1 hkept with rfl | hkept
  · rw [Entry.awaits, List.foldl_append]
    rfl
  · have hnone := (hkept.filterMap fun (e : Entry) => e.deed.answered?).subset hanswered
    rw [← Entry.shown, hasked] at hnone
    cases hnone

/-- A caller that waits has handed over the identity by then. -/
theorem started_of_hasNamed {r : Run}
    (h : Run.Underway (execute client config .listening s).entries r) (hrest : r.AtRest)
    (hnamed : client.HasNamed config s job r.done) :
    (Entry.shown Deed.started? r.done).head? = some job := by
  obtain ⟨manifest, t, hmanifest, hcreates, hanswered⟩ := hnamed
  have hcourse := h.done_append_pending
  have hstarts := h.starts
  rw [entries_execute_listening hmanifest hcreates] at hcourse hstarts
  rw [List.append_cons] at hstarts
  rcases List.prefix_or_prefix_of_prefix hstarts (List.prefix_append _ _) with hshort | hlong
  · rcases List.prefix_concat_iff.1 hshort with hdone | hshort
    · rw [hdone, Entry.shown_append, started_entriesBefore]
      rfl
    · -- the identity is what the caller has to hand over next, without waiting
      exfalso
      obtain ⟨asked, time, hbefore, hasked⟩ := entriesBefore_of_creates hcreates
      rcases hrest with hnothing | hwaits
      · obtain ⟨more, hmore⟩ := hshort
        rw [← hmore, List.append_assoc] at hcourse
        have hpending := List.append_cancel_left hcourse
        rw [Run.pending, hnothing, List.append_nil] at hpending
        have hworker := h.onWorker_of_mem_workLeft (hpending ▸
          List.mem_append_right more List.mem_cons_self)
        cases hworker
      · rw [awaits_of_named (hbefore ▸ hshort) hasked hanswered] at hwaits
        cases hwaits
  · obtain ⟨more, hmore⟩ := hlong
    rw [← hmore, Entry.shown_append, Entry.shown_append, started_entriesBefore]
    rfl

end Started

/-! ## The whole run -/

theorem count_createJob_le (client : Client σ) (config : JobConfig) (listener : Listener) (s : σ) :
    ((execute client config listener s).calls.map Call.kind).count .createJob ≤ 1 := by
  cases hmanifest : config.manifest with
  | error e =>
    rw [Course.calls_eq_seen, seen_execute_of_error hmanifest]
    exact Nat.zero_le 1
  | ok manifest =>
    obtain ⟨job, pod, name, hfirst, -⟩ := execute_obeys client listener s hmanifest
    refine Nat.le_trans ((hfirst.sublist.map Call.kind).count_le _) ?_
    unfold planAfterPod
    cases config.streamOutput <;> simp [Call.kind]

theorem timely_of_reaches {client : Client σ} {config : JobConfig} {listener : Listener} {s : σ}
    {r : Run} (h : Run.Reaches (.start (execute client config listener s).entries) r) :
    r.Timely :=
  (Run.timely_start (execute_ordered client config listener s).sorted).of_reaches h

/-- **Dropping the caller truncates a run. It may fall between any two deeds; the calls made and the
lines written until then are those with which the whole run starts, the worker adds nothing to them,
and the job is created at most once. The identity has been handed over exactly if the server had
named the job by then.** -/
theorem execute_drop (client : Client σ) (config : JobConfig) (listener : Listener) (s : σ) :
    (∀ n, ∃ r, Run.Reaches (.start (execute client config listener s).entries) r ∧
      r.done = (execute client config listener s).entries.take n) ∧
    (∀ time, ∃ r, Run.Reaches (.start (execute client config listener s).entries) r ∧
      r.now = time) ∧
    ∀ r r', Run.Reaches (.start (execute client config listener s).entries) r →
      Run.Reaches r.drop r' →
      Run.Truncates (execute client config listener s) r r' ∧
      (r'.past.calls.map Call.kind).count .createJob ≤ 1 ∧
      (∀ job, r'.past.started? = some job →
        listener = .listening ∧ client.HasNamed config s job r.done) ∧
      (r.AtRest → ∀ job, r'.past.started? = some job ↔
        listener = .listening ∧ client.HasNamed config s job r.done) := by
  have hstart := underway_of_reaches (r := .start (execute client config listener s).entries) .refl
  have htimely := Run.timely_start (execute_ordered client config listener s).sorted
  refine ⟨fun n => ⟨_, htimely.reaches_turns n, hstart.done_turns htimely n⟩,
    fun time => hstart.exists_now htimely (Nat.zero_le time), fun r r' hr hr' => ?_⟩
  have hunderway := underway_of_reaches hr
  have hdropped := hunderway.drop.of_reaches hr'
  have htruncates := hunderway.truncates (timely_of_reaches hr) hdropped
  have hstarted : r'.past.started? = (Entry.shown Deed.started? r.done).head? := by
    rw [Course.started?_eq_head?, hdropped.seen_past fun _ => rfl]
  have hnamed (job : JobIdentity) (h : r'.past.started? = some job) :=
    hasNamed_of_started hunderway.starts (hstarted ▸ h)
  refine ⟨htruncates, ?_, hnamed, fun hrest job => ⟨hnamed job, ?_⟩⟩
  · exact Nat.le_trans ((htruncates.calls.sublist.map Call.kind).count_le _)
      (count_createJob_le client config listener s)
  · rintro ⟨rfl, h⟩
    rw [hstarted]
    exact started_of_hasNamed hunderway hrest h

theorem execute_drop_slowLog : ∃ r,
    Run.Reaches (.start (execute Client.slowLog .standard .listening ()).entries) r ∧
    r.AtRest ∧ r.drop.past.lines = ["one"] ∧
    (execute Client.slowLog .standard .listening ()).lines = ["one", "two"] ∧
    Run.Truncates (execute Client.slowLog .standard .listening ()) r r.drop ∧
    r.drop.past.started? = some ⟨"batch-1", "default"⟩ ∧
    Client.slowLog.HasNamed .standard () ⟨"batch-1", "default"⟩ r.done := by
  have hreaches := (Run.timely_start
    (execute_ordered Client.slowLog .standard .listening ()).sorted).reaches_turns 20
  have hrest : Run.AtRest (Run.turns 20
      (.start (execute Client.slowLog .standard .listening ()).entries)) :=
    .inr (by decide +kernel)
  obtain ⟨-, -, hdrop⟩ := execute_drop Client.slowLog .standard .listening ()
  obtain ⟨htruncates, -, -, hiff⟩ := hdrop _ _ hreaches .refl
  have hstarted : (Run.turns 20 (.start (execute Client.slowLog .standard .listening
      ()).entries)).drop.past.started? = some ⟨"batch-1", "default"⟩ := by decide +kernel
  exact ⟨_, hreaches, hrest, by decide +kernel, by decide +kernel, htruncates, hstarted,
    ((hiff hrest _).1 hstarted).2⟩

end BatchRun
