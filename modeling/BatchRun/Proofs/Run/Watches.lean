import BatchRun.Proofs.Run.Deadlines

/-!
# What the two watches come to

Each of the two watches ends in one of a few ways, and which one is settled by the first event that
decides and by the time at which it comes. Everything before that event only takes its time, and an
event at the very deadline still counts.

* `Course.FailsAt`, `Course.failsAt_bind_iff`: a course fails after a time;
* `Ending.Among`, `Act.among_followSteps`: an activity fails and panics in certain ways only;
* `Reply.Calm`: neither the call nor the watch that it opens panics;
* `Reply.hush`, `Step.delivers_hush_iff`: the watch without events that are waited past;
* **`podStart_outcome`**: the pod that is delivered in time, or else that none has started;
* **`jobEnd_outcome`**: the refusal, the job or its deletion that comes in time, or else that the
  job has not completed.
-/

namespace BatchRun

variable {σ ε α β κ : Type}

/-! ## Failing after a time -/

namespace Course

/-- The course fails after so many milliseconds. -/
def FailsAt (c : Course ε α) (error : ε) (n : Nat) : Prop := c.ending = .failed error ∧ c.length = n

/-- **Of two activities in a row the first fails, or it gives something with which the second
fails.** -/
theorem failsAt_bind_iff {c : Course ε α} {f : α → Course ε β} {error : ε} {n : Nat} :
    (c.bind f).FailsAt error n ↔ c.FailsAt error n ∨
      ∃ a m k, c.Gives a m ∧ (f a).FailsAt error k ∧ n = m + k := by
  unfold FailsAt Gives bind
  cases c.ending with
  | returned a =>
    constructor
    · rintro ⟨hfails, hn⟩
      exact .inr ⟨a, c.length, (f a).length, ⟨rfl, rfl⟩, ⟨hfails, rfl⟩, hn.symm⟩
    · rintro (⟨hfails, _⟩ | ⟨a', m, k, ⟨ha, rfl⟩, ⟨hfails, rfl⟩, rfl⟩)
      · cases hfails
      · cases ha
        exact ⟨hfails, rfl⟩
  | failed error' => simp
  | panicked message => simp
  | stuck => simp

/-- A failure by the deadline is let through; the one that the deadline itself brings comes of what
has not ended by then. -/
theorem ending_within_eq_failed_iff {limit : Nat} {late : Notice} {lateness error : ε}
    {c : Course ε α} (herror : error ≠ lateness) :
    (c.within limit late lateness).ending = .failed error ↔
      ∃ n, c.FailsAt error n ∧ n ≤ limit := by
  rw [ending_within]
  split
  · rename_i hends
    constructor
    · exact fun hfails => ⟨c.length, ⟨hfails, rfl⟩, (endsBy_iff.1 hends).2⟩
    · rintro ⟨n, ⟨hfails, _⟩, _⟩
      exact hfails
  · rename_i hends
    constructor
    · intro hfails
      cases hfails
      exact absurd rfl herror
    · rintro ⟨n, ⟨hfails, rfl⟩, hn⟩
      exact absurd (endsBy_iff.2 ⟨by rw [hfails]; rfl, hn⟩) hends

end Course

namespace Act

theorem failsAt_bind_iff {x : Act σ ε α} {f : α → Act σ ε β} {s : σ} {error : ε} {n : Nat} :
    ((x >>= f) s).FailsAt error n ↔ (x s).FailsAt error n ∨
      ∃ a t m k, (x s).Gives (a, t) m ∧ (f a t).FailsAt error k ∧ n = m + k := by
  rw [bind_apply, Course.failsAt_bind_iff, Prod.exists]

theorem failsAt_note_bind_iff {notice : Notice} {f : Unit → Act σ ε β} {s : σ} {error : ε}
    {n : Nat} : ((note notice >>= f) s).FailsAt error n ↔ (f () s).FailsAt error n := by
  rw [bind_apply, note_apply, Course.bind]
  simp [Course.FailsAt]

theorem failsAt_fail_iff {error error' : ε} {s : σ} {n : Nat} :
    (fail error s : Course ε (α × σ)).FailsAt error' n ↔ error' = error ∧ n = 0 := by
  constructor
  · rintro ⟨hfails, rfl⟩
    cases hfails
    exact ⟨rfl, rfl⟩
  · rintro ⟨rfl, rfl⟩
    exact ⟨rfl, rfl⟩

end Act

/-! ## Ending in certain ways only -/

namespace Ending

/-- If the activity fails then with one of the errors, and if it panics then with one of the
messages. -/
def Among (errors : ε → Prop) (messages : String → Prop) : Ending ε α → Prop
  | returned _ | stuck => True
  | failed error => errors error
  | panicked message => messages message

variable {errors : ε → Prop} {messages : String → Prop}

theorem Among.bind {e : Ending ε α} {f : α → Ending ε β} (he : e.Among errors messages)
    (hf : ∀ a, e = .returned a → (f a).Among errors messages) :
    (e.bind f).Among errors messages := by
  cases e with
  | returned a => exact hf a rfl
  | failed error => exact he
  | panicked message => exact he
  | stuck => trivial

end Ending

/-- With a deadline an activity that does not panic returns, or fails in one of its ways or late. -/
theorem Course.ending_within_cases {errors : ε → Prop} {c : Course ε α}
    (h : c.ending.Among errors fun _ => False) (limit : Nat) (late : Notice) {lateness : ε}
    (hlate : errors lateness) :
    (∃ a, (c.within limit late lateness).ending = .returned a) ∨
      ∃ error, errors error ∧ (c.within limit late lateness).ending = .failed error := by
  have hover := c.within_ne_stuck limit late lateness
  rw [ending_within] at hover ⊢
  split
  · rename_i hends
    rw [if_pos hends] at hover
    cases hending : c.ending with
    | returned a => exact .inl ⟨a, rfl⟩
    | failed error =>
      rw [hending] at h
      exact .inr ⟨error, h, rfl⟩
    | panicked message =>
      rw [hending] at h
      exact h.elim
    | stuck => exact absurd hending hover
  · exact .inr ⟨lateness, hlate, rfl⟩

namespace Act

variable {errors : ε → Prop} {messages : String → Prop}

theorem among_bind {x : Act σ ε α} {f : α → Act σ ε β} {s : σ}
    (hx : (x s).ending.Among errors messages)
    (hf : ∀ a t, (x s).ending = .returned (a, t) → (f a t).ending.Among errors messages) :
    ((x >>= f) s).ending.Among errors messages := by
  rw [ending_bind]
  exact hx.bind fun p hp => hf p.1 p.2 hp

theorem among_ask {call : Call} {reply : σ → Reply σ α} {s : σ}
    (h : ∀ message, (reply s).outcome = .panics message → messages message) :
    (ask call reply s : Course ε _).ending.Among errors messages := by
  rw [ending_ask]
  cases hreply : (reply s).outcome with
  | panics message => exact h message hreply
  | _ => trivial

theorem among_notes (ns : List Notice) (s : σ) :
    (notes ns s : Course ε _).ending.Among errors messages := by
  induction ns generalizing s with
  | nil => trivial
  | cons n ns ih => exact among_bind trivial fun _ t _ => ih t

/-- A watch does not fail, and panics only as one of its steps does. By induction on the steps: a
step leaves it to the rest of the watch, or the watch ends there. -/
theorem among_followSteps (react : κ → WatchEvent α → Reaction κ β) (closes : Bool) (k : κ)
    {steps : List (Step σ α)}
    (h : ∀ step ∈ steps, ∀ message, step.item = some (.error message) → messages message) (s : σ) :
    (followSteps react closes k steps s : Course ε _).ending.Among errors messages := by
  induction steps generalizing k s with
  | nil =>
    rw [followSteps]
    cases closes <;> trivial
  | cons step rest ih =>
    obtain ⟨hstep, hrest⟩ := List.forall_mem_cons.1 h
    rw [followSteps]
    refine among_bind trivial fun _ t _ => ?_
    cases hitem : step.item with
    | none => exact ih k hrest t
    | some item =>
      cases item with
      | error message => exact hstep message hitem
      | ok event =>
        refine among_bind (among_notes _ t) fun _ u _ => ?_
        cases (react k event).next with
        | inl k' => exact ih k' hrest u
        | inr decision => trivial

theorem not_failsAt_ask {call : Call} {reply : σ → Reply σ α} {s : σ} {error : ε} {n : Nat} :
    ¬ (ask call reply s : Course ε _).FailsAt error n := by
  rintro ⟨hfails, _⟩
  have hamong : (ask call reply s : Course ε _).ending.Among (fun _ => False) fun _ => True :=
    among_ask fun _ _ => trivial
  rw [hfails] at hamong
  exact hamong

theorem not_failsAt_follow {react : κ → WatchEvent α → Reaction κ β} {k : κ} {feed : Feed σ α}
    {s : σ} {error : ε} {n : Nat} : ¬ (follow react k feed s : Course ε _).FailsAt error n := by
  rintro ⟨hfails, _⟩
  have hamong : (follow react k feed s : Course ε _).ending.Among (fun _ => False) fun _ => True :=
    among_followSteps react feed.closes k (fun _ _ _ _ => trivial) s
  rw [hfails] at hamong
  exact hamong

end Act

/-! ## Calm watches -/

/-- The call does not panic, and neither does the watch that it opens. -/
structure Reply.Calm (r : Reply σ (Feed σ α)) : Prop where
  call : ∀ message, r.outcome ≠ .panics message
  watch : ∀ feed t, r.outcome = .returns (.ok feed) t →
    ∀ step ∈ feed.steps, ∀ message, step.item ≠ some (.error message)

namespace Step

/-- The step, silent about some events. -/
def hush (idle : WatchEvent α → Bool) (step : Step σ α) : Step σ α :=
  match step.item with
  | some (.ok event) => if idle event then { step with item := none } else step
  | _ => step

variable {idle : WatchEvent α → Bool} {waits : WatchEvent α → Prop}

theorem hush_cases (idle : WatchEvent α → Bool) (step : Step σ α) : step.hush idle = step ∨
    ∃ event, step.item = some (.ok event) ∧ idle event = true ∧
      step.hush idle = { step with item := none } := by
  unfold hush
  split
  · rename_i event hitem
    split
    · rename_i hidle
      exact .inr ⟨event, hitem, hidle, rfl⟩
    · exact .inl rfl
  · exact .inl rfl

@[simp] theorem wait_hush (step : Step σ α) : (step.hush idle).wait = step.wait := by
  rcases step.hush_cases idle with h | ⟨_, _, _, h⟩ <;> rw [h]

theorem delivers_hush_iff (hidle : ∀ e, idle e = true → waits e) {steps : List (Step σ α)}
    {event : WatchEvent α} {time : Nat} {client : σ} :
    Delivers waits (steps.map (hush idle)) event time client ↔
      Delivers waits steps event time client := by
  induction steps generalizing time with
  | nil => exact Iff.rfl
  | cons step rest ih =>
    rw [List.map_cons]
    by_cases hsilent : step.Silent waits
    · have hhushed : (step.hush idle).Silent waits := by
        rcases step.hush_cases idle with h | ⟨_, _, _, h⟩
        · rwa [h]
        · exact silent_of_none (by rw [h])
      rw [delivers_cons_of_silent hsilent, delivers_cons_of_silent hhushed, wait_hush]
      exact exists_congr fun later => and_congr_left fun _ => ih
    · have hkept : step.hush idle = step := by
        rcases step.hush_cases idle with h | ⟨event, hitem, hevent, _⟩
        · exact h
        · exact absurd ((silent_iff_of_ok hitem).2 (hidle event hevent)) hsilent
      rw [hkept, delivers_cons_of_not_silent hsilent, delivers_cons_of_not_silent hsilent]

end Step

/-- The watch, silent about some events. -/
def Feed.hush (idle : WatchEvent α → Bool) (feed : Feed σ α) : Feed σ α :=
  { feed with steps := feed.steps.map (Step.hush idle) }

namespace Reply

/-- The same call, with the watch that it opens silent about some events. -/
def hush (idle : WatchEvent α → Bool) (r : Reply σ (Feed σ α)) : Reply σ (Feed σ α) :=
  { r with
    outcome := match r.outcome with
      | .returns (.ok feed) t => .returns (.ok (feed.hush idle)) t
      | outcome => outcome }

variable {idle : WatchEvent α → Bool} {r : Reply σ (Feed σ α)}

theorem outcome_hush_eq_opened_iff {feed : Feed σ α} {t : σ} :
    (r.hush idle).outcome = .returns (.ok feed) t ↔
      ∃ heard, r.outcome = .returns (.ok heard) t ∧ feed = heard.hush idle := by
  unfold hush
  rcases hr : r.outcome with ⟨fault | heard, u⟩ | message | _ <;> simp [eq_comm, and_comm]

/-- The call opens a watch that delivers an event within the limit, and before that only what is
waited past. -/
def DeliversBy (waits : WatchEvent α → Prop) (r : Reply σ (Feed σ α)) (limit : Nat)
    (event : WatchEvent α) (t : σ) : Prop :=
  ∃ feed u time, r.outcome = .returns (.ok feed) u ∧ Step.Delivers waits feed.steps event time t ∧
    r.delay + time ≤ limit

theorem deliversBy_hush_iff {waits : WatchEvent α → Prop} (hidle : ∀ e, idle e = true → waits e)
    {limit : Nat} {event : WatchEvent α} {t : σ} :
    (r.hush idle).DeliversBy waits limit event t ↔ r.DeliversBy waits limit event t := by
  constructor
  · rintro ⟨feed, u, time, hopened, hdelivers, htime⟩
    obtain ⟨heard, hheard, rfl⟩ := outcome_hush_eq_opened_iff.1 hopened
    exact ⟨heard, u, time, hheard, (Step.delivers_hush_iff hidle).1 hdelivers, htime⟩
  · rintro ⟨heard, u, time, hheard, hdelivers, htime⟩
    exact ⟨heard.hush idle, u, time, outcome_hush_eq_opened_iff.2 ⟨heard, hheard, rfl⟩,
      (Step.delivers_hush_iff hidle).2 hdelivers, htime⟩

theorem outcome_hush_eq_refused_iff {fault : Fault} {t : σ} :
    (r.hush idle).outcome = .returns (.error fault) t ↔ r.outcome = .returns (.error fault) t := by
  unfold hush
  rcases hr : r.outcome with ⟨fault | heard, u⟩ | message | _ <;> simp

theorem Calm.hush (h : r.Calm) (idle : WatchEvent α → Bool) : (r.hush idle).Calm where
  call := by
    intro message hpanics
    have hcall := h.call message
    unfold Reply.hush at hpanics
    rcases hr : r.outcome with ⟨fault | heard, u⟩ | other | _ <;> simp_all
  watch := by
    intro feed t hopened step hstep message hitem
    obtain ⟨heard, hheard, rfl⟩ := outcome_hush_eq_opened_iff.1 hopened
    obtain ⟨said, hsaid, rfl⟩ := List.mem_map.1 hstep
    rcases said.hush_cases idle with hkept | ⟨_, _, _, hhushed⟩
    · rw [hkept] at hitem
      exact h.watch heard t hheard said hsaid message hitem
    · rw [hhushed] at hitem
      cases hitem

end Reply

namespace Client

/-- The client whose pod watches are silent about some events. -/
def hushPods (idle : WatchEvent Pod → Bool) (client : Client σ) : Client σ :=
  { client with watchPods := fun ns selector s => (client.watchPods ns selector s).hush idle }

/-- The client whose job watches are silent about some events. -/
def hushJobs (idle : WatchEvent Job → Bool) (client : Client σ) : Client σ :=
  { client with watchJobs := fun ns selector s => (client.watchJobs ns selector s).hush idle }

end Client

/-! ## The pod watch -/

section PodWatch

variable {client : Client σ} {job : JobIdentity} {s : σ}

theorem among_firstStarted {errors : ε → Prop}
    (h : (client.watchPods job.ns job.podSelector s).Calm) :
    (firstStarted client job s : Course ε _).ending.Among errors fun _ => False := by
  refine Act.among_bind trivial fun _ s' hnote => ?_
  cases hnote
  refine Act.among_bind (Act.among_ask h.call) fun answer t hanswer => ?_
  cases answer with
  | error fault => exact Act.among_bind trivial fun _ _ _ => trivial
  | ok feed =>
    exact Act.among_followSteps _ _ _ (h.watch feed t (Act.ending_ask_eq_returned_iff.1 hanswer)) t

theorem podStart_cases (h : (client.watchPods job.ns job.podSelector s).Calm) (limit : Nat) :
    (∃ p, (podStart client job limit s).ending = .returned p) ∨
      (podStart client job limit s).ending = .failed (.podNeverStarted job.name limit) := by
  have hcases : (∃ p, (podStart client job limit s).ending = .returned p) ∨
      ∃ error, error = .podNeverStarted job.name limit ∧
        (podStart client job limit s).ending = .failed error := by
    refine Course.ending_within_cases ?_ limit _ rfl
    refine Act.among_bind (among_firstStarted h) fun found t _ => ?_
    cases found with
    | none => exact Act.among_bind trivial fun _ _ _ => rfl
    | some pod => trivial
  rcases hcases with hreturns | ⟨_, rfl, hfails⟩
  · exact .inl hreturns
  · exact .inr hfails

theorem ending_podStart_of_none (h : (client.watchPods job.ns job.podSelector s).Calm) {limit : Nat}
    (hnone : ∀ pod t, ¬ client.StartsPod job limit s pod t) :
    (podStart client job limit s).ending = .failed (.podNeverStarted job.name limit) := by
  rcases podStart_cases h limit with ⟨⟨pod, t⟩, hreturns⟩ | hfails
  · exact absurd (podStart_returns_iff.1 hreturns) (hnone pod t)
  · exact hfails

/-- **The pod watch comes to the first pod that has left its first phase, if it is delivered in
time, and to nothing else; in every other case no pod has started, which is known by the deadline.
Events that are waited past, such as deletions and faults, only take their time.** -/
theorem podStart_outcome (h : (client.watchPods job.ns job.podSelector s).Calm) (limit : Nat) :
    (∀ pod t, (podStart client job limit s).ending = .returned (pod, t) ↔
      client.StartsPod job limit s pod t) ∧
    ((∀ pod t, ¬ client.StartsPod job limit s pod t) →
      (podStart client job limit s).ending = .failed (.podNeverStarted job.name limit)) ∧
    (podStart client job limit s).length ≤ limit ∧
    ∀ idle : WatchEvent Pod → Bool, (∀ e, idle e = true → PodStart.Waits e) →
      (podStart (client.hushPods idle) job limit s).ending =
        (podStart client job limit s).ending := by
  refine ⟨fun pod t => podStart_returns_iff, ending_podStart_of_none h,
    Act.lasts_within _ _ _ _ s, fun idle hidle => ?_⟩
  have hhushed : ((client.hushPods idle).watchPods job.ns job.podSelector s).Calm := h.hush idle
  have hsame (pod : Pod) (t : σ) :
      (client.hushPods idle).StartsPod job limit s pod t ↔ client.StartsPod job limit s pod t :=
    Reply.deliversBy_hush_iff hidle
  by_cases hstarts : ∃ pod t, client.StartsPod job limit s pod t
  · obtain ⟨pod, t, hstarts⟩ := hstarts
    rw [podStart_returns_iff.2 hstarts, podStart_returns_iff.2 ((hsame pod t).2 hstarts)]
  · have hnone (pod : Pod) (t : σ) : ¬ client.StartsPod job limit s pod t :=
      fun hpod => hstarts ⟨pod, t, hpod⟩
    rw [ending_podStart_of_none h hnone, ending_podStart_of_none hhushed fun pod t hpod =>
      hnone pod t ((hsame pod t).1 hpod)]

end PodWatch

namespace Script

/-- A cluster on which the pod is first pending, is deleted and comes back in the end; a fault comes
in between. -/
def returningPod : Script :=
  { exiting 3 with
    pods := ⟨1000, none, ⟨[⟨4000, .ok (.applied { exitedPod 3 with reported := none })⟩,
      ⟨20000, .ok (.deleted (exitedPod 3))⟩,
      ⟨5000, .ok (.fault (.watch "pods" "connection reset"))⟩,
      ⟨30000, .ok (.applied (exitedPod 3))⟩], true⟩⟩ }

section

variable {α : Type} {watch : Scripted (ScriptedWatch α)} (hcall : watch.mishap = none)

include hcall

theorem outcome_watch : (watch.reply ScriptedWatch.feed).outcome =
    .returns (.ok watch.answer.feed) () := by
  simp [Scripted.reply, Scripted.outcome, hcall]

theorem calm_watch (hevents : ∀ e ∈ watch.answer.events, ∃ event, e.item = .ok event) :
    (watch.reply ScriptedWatch.feed).Calm where
  call := by
    intro message hpanics
    rw [outcome_watch hcall] at hpanics
    cases hpanics
  watch := by
    intro feed t hopened step hstep message hitem
    rw [outcome_watch hcall] at hopened
    cases hopened
    obtain ⟨e, he, rfl⟩ := List.mem_map.1 hstep
    obtain ⟨event, hevent⟩ := hevents e he
    simp [hevent] at hitem

theorem deliversBy_watch {waits : WatchEvent α → Prop} {limit delay : Nat} {event : WatchEvent α}
    (before after : List (ScriptedEvent α))
    (hevents : watch.answer.events = before ++ ⟨delay, .ok event⟩ :: after)
    (hbefore : ∀ e ∈ before, ∃ told, e.item = .ok told ∧ waits told) (hevent : ¬ waits event)
    (htime : watch.delay + ((before.map ScriptedEvent.delay).sum + delay) ≤ limit) :
    (watch.reply ScriptedWatch.feed).DeliversBy waits limit event () := by
  have hsteps : watch.answer.feed.steps =
      before.map (fun (e : ScriptedEvent α) => (⟨e.delay, [], some e.item, ()⟩ : Step Unit α)) ++
        ⟨delay, [], some (.ok event), ()⟩ :: after.map fun (e : ScriptedEvent α) =>
          (⟨e.delay, [], some e.item, ()⟩ : Step Unit α) := by
    rw [ScriptedWatch.feed, hevents, List.map_append, List.map_cons]
  refine ⟨_, (), _, outcome_watch hcall,
    ⟨_, _, _, hsteps, fun b hb => ?_, rfl, hevent, rfl, rfl⟩, ?_⟩
  · obtain ⟨e, he, rfl⟩ := List.mem_map.1 hb
    obtain ⟨told, htold, hwaits⟩ := hbefore e he
    exact (Step.silent_iff_of_ok (congrArg some htold)).2 hwaits
  · have hdelay : (watch.reply ScriptedWatch.feed).delay = watch.delay := Nat.zero_add _
    rw [hdelay, Step.waited, List.map_map]
    exact htime

end

end Script

theorem podStart_outcome_returningPod :
    (podStart Script.returningPod.client ⟨"batch-1", "default"⟩ 60000 ()).ending =
      .returned (Script.exitedPod 3, ()) ∧
    (podStart Script.returningPod.client ⟨"batch-1", "default"⟩ 59999 ()).length ≤ 59999 := by
  have hcalm : (Script.returningPod.client.watchPods "default" "job-name=batch-1" ()).Calm :=
    Script.calm_watch rfl (by simp [Script.returningPod])
  refine ⟨((podStart_outcome hcalm 60000).1 _ _).2 ?_, (podStart_outcome hcalm 59999).2.2.1⟩
  refine Script.deliversBy_watch rfl (List.take 3 Script.returningPod.pods.answer.events) [] rfl
    ?_ ?_ (Nat.le_refl _)
  · simp [Script.returningPod, PodStart.Waits, Pod.phase, PodPhase.ofReport]
  · simp [PodStart.Waits, Script.exitedPod, Pod.phase, PodPhase.ofReport]

/-! ## The job watch -/

namespace Client

variable (client : Client σ) (job : JobIdentity) (limit : Nat) (s : σ)

/-- The job watch is refused within the limit. -/
def RefusesJobWatch (fault : Fault) : Prop :=
  ∃ t, (client.watchJobs job.ns job.nameSelector s).outcome = .returns (.error fault) t ∧
    (client.watchJobs job.ns job.nameSelector s).delay ≤ limit

/-- The job watch delivers the deletion of the job, before it has finished and within the limit. -/
def DeletesJob : Prop :=
  ∃ deleted t, (client.watchJobs job.ns job.nameSelector s).DeliversBy JobEnd.Waits limit
    (.deleted deleted) t

end Client

/-- What the job stage makes of the outcome of the watch. -/
def concludeJob (job : JobIdentity) (limit : Nat) :
    Option (Except LifecycleError Job) → Act σ LifecycleError Job
  | some (.ok finished) => return finished
  | some (.error e) => Act.fail e
  | none => do
    Act.note (.jobWatchClosed job.name)
    Act.fail (.jobNeverCompleted job.name limit)

/-- What the job stage makes of the answer to its call. -/
def followJob (job : JobIdentity) (limit : Nat) :
    Except Fault (Feed σ Job) → Act σ LifecycleError Job
  | .error f => Act.fail (.api job.name f)
  | .ok feed => Act.held .jobWatch (Act.follow (JobEnd.react job.name) () feed) >>=
      concludeJob job limit

section JobWatch

variable {client : Client σ} {job : JobIdentity} {limit : Nat} {s t : σ}

theorem jobEnd_eq : jobEnd client job limit =
    Act.within limit (.jobLate job.name limit) (.jobNeverCompleted job.name limit)
      (Act.note (.watchingJob job.name job.nameSelector) >>= fun _ =>
        Act.ask (.watchJobs job.ns job.nameSelector) (client.watchJobs job.ns job.nameSelector) >>=
          followJob job limit) := by
  unfold jobEnd
  rfl

theorem failsAt_concludeJob_iff {found : Option (Except LifecycleError Job)}
    {error : LifecycleError} (herror : error ≠ .jobNeverCompleted job.name limit) {n : Nat} :
    (concludeJob job limit found s).FailsAt error n ↔ found = some (.error error) ∧ n = 0 := by
  rcases found with _ | e | finished
  · simp [concludeJob, Act.failsAt_note_bind_iff, Act.failsAt_fail_iff, herror]
  · simp [concludeJob, Act.failsAt_fail_iff, eq_comm]
  · constructor
    · rintro ⟨hfails, _⟩
      cases hfails
    · rintro ⟨⟨⟩, _⟩

theorem gives_follow_error_iff {feed : Feed σ Job} {error : LifecycleError} {n : Nat} :
    (Act.follow (JobEnd.react job.name) () feed s : Course ε _).Gives (some (.error error), t) n ↔
      error = .jobNotFound job.name ∧
        ∃ deleted, Step.Delivers JobEnd.Waits feed.steps (.deleted deleted) n t := by
  rw [Act.gives_follow_iff (JobEnd.getRight?_react job.name), JobEnd.verdict_eq_none]
  constructor
  · rintro ⟨event, hverdict, hdelivers⟩
    cases event with
    | applied observed =>
      obtain ⟨_, _, heq⟩ := Option.map_eq_some_iff.1 hverdict
      cases heq
    | deleted observed =>
      cases hverdict
      exact ⟨rfl, observed, hdelivers⟩
    | fault f => cases hverdict
  · rintro ⟨rfl, deleted, hdelivers⟩
    exact ⟨.deleted deleted, rfl, hdelivers⟩

/-- Apart from the loss of the watch, only the deletion of the job makes the stage fail. -/
theorem failsAt_followJob_iff {feed : Feed σ Job} {error : LifecycleError}
    (herror : error ≠ .jobNeverCompleted job.name limit) {n : Nat} :
    (followJob job limit (.ok feed) s).FailsAt error n ↔ error = .jobNotFound job.name ∧
      ∃ deleted t, Step.Delivers JobEnd.Waits feed.steps (.deleted deleted) n t := by
  simp only [followJob, Act.failsAt_bind_iff, failsAt_concludeJob_iff herror]
  constructor
  · rintro (hfails | ⟨_, t, m, k, hgives, ⟨rfl, rfl⟩, rfl⟩)
    · exact absurd hfails Act.not_failsAt_follow
    · obtain ⟨rfl, deleted, hdelivers⟩ := gives_follow_error_iff.1 hgives
      exact ⟨rfl, deleted, t, hdelivers⟩
  · rintro ⟨rfl, deleted, t, hdelivers⟩
    exact .inr ⟨_, t, n, 0, gives_follow_error_iff.2 ⟨rfl, deleted, hdelivers⟩, ⟨rfl, rfl⟩, rfl⟩

/-- **Apart from the deadline and the loss of the watch, the job stage fails exactly if the watch is
refused in time or delivers the deletion of the job in time.** -/
theorem jobEnd_failed_iff {error : LifecycleError}
    (herror : error ≠ .jobNeverCompleted job.name limit) :
    (jobEnd client job limit s).ending = .failed error ↔
      (∃ fault, error = .api job.name fault ∧ client.RefusesJobWatch job limit s fault) ∨
        error = .jobNotFound job.name ∧ client.DeletesJob job limit s := by
  rw [jobEnd_eq, Act.within, Act.mapCourse, Course.ending_within_eq_failed_iff herror]
  simp only [Act.failsAt_note_bind_iff]
  simp only [Act.failsAt_bind_iff, Act.gives_ask_iff]
  constructor
  · rintro ⟨n, hfails | ⟨answer, t, m, k, ⟨hanswer, rfl⟩, hfails, rfl⟩, hn⟩
    · exact absurd hfails Act.not_failsAt_ask
    · cases answer with
      | error fault =>
        obtain ⟨rfl, rfl⟩ := Act.failsAt_fail_iff.1 hfails
        exact .inl ⟨fault, rfl, t, hanswer, hn⟩
      | ok feed =>
        obtain ⟨rfl, deleted, u, hdelivers⟩ := (failsAt_followJob_iff herror).1 hfails
        exact .inr ⟨rfl, deleted, u, feed, t, k, hanswer, hdelivers, hn⟩
  · rintro (⟨fault, rfl, t, hanswer, hn⟩ | ⟨rfl, deleted, u, feed, t, k, hanswer, hdelivers, hn⟩)
    · exact ⟨_, .inr ⟨_, t, _, 0, ⟨hanswer, rfl⟩, Act.failsAt_fail_iff.2 ⟨rfl, rfl⟩, rfl⟩, hn⟩
    · exact ⟨_, .inr ⟨_, t, _, k, ⟨hanswer, rfl⟩,
        (failsAt_followJob_iff herror).2 ⟨rfl, deleted, u, hdelivers⟩, rfl⟩, hn⟩

theorem jobEnd_cases (h : (client.watchJobs job.ns job.nameSelector s).Calm) (limit : Nat) :
    (∃ p, (jobEnd client job limit s).ending = .returned p) ∨
      ∃ error, ((∃ fault, error = .api job.name fault) ∨ error = .jobNotFound job.name ∨
        error = .jobNeverCompleted job.name limit) ∧
        (jobEnd client job limit s).ending = .failed error := by
  rw [jobEnd_eq]
  refine Course.ending_within_cases ?_ limit _ (.inr (.inr rfl))
  refine Act.among_bind trivial fun _ s' hnote => ?_
  cases hnote
  refine Act.among_bind (Act.among_ask h.call) fun answer t hanswer => ?_
  cases answer with
  | error fault => exact .inl ⟨fault, rfl⟩
  | ok feed =>
    have hcalm := h.watch feed t (Act.ending_ask_eq_returned_iff.1 hanswer)
    refine Act.among_bind (Act.among_followSteps _ _ _ (fun step hstep message hitem =>
      hcalm step hstep message hitem) t) fun found u hfound => ?_
    rcases found with _ | error | finished
    · exact Act.among_bind trivial fun _ _ _ => .inr (.inr rfl)
    · exact .inr (.inl (gives_follow_error_iff.1 ⟨hfound, rfl⟩).1)
    · trivial

theorem ending_jobEnd_of_none (h : (client.watchJobs job.ns job.nameSelector s).Calm)
    (hrefuses : ∀ fault, ¬ client.RefusesJobWatch job limit s fault)
    (hfinishes : ∀ finished t, ¬ client.FinishesJob job limit s finished t)
    (hdeletes : ¬ client.DeletesJob job limit s) :
    (jobEnd client job limit s).ending = .failed (.jobNeverCompleted job.name limit) := by
  rcases jobEnd_cases h limit with ⟨⟨finished, t⟩, hreturns⟩ | ⟨error, -, hfails⟩
  · exact absurd (jobEnd_returns_iff.1 hreturns) (hfinishes finished t)
  · by_cases herror : error = .jobNeverCompleted job.name limit
    · rw [hfails, herror]
    · rcases (jobEnd_failed_iff herror).1 hfails with ⟨fault, _, hrefused⟩ | ⟨_, hdeleted⟩
      · exact absurd hrefused (hrefuses fault)
      · exact absurd hdeleted hdeletes

/-- **The job watch comes to its refusal, or to the first event that decides: the job that has
finished or the deletion of the job, whichever it is, if that is delivered in time; in every other
case the job has not completed, which is known by the deadline. Events that are waited past only
take their time.** -/
theorem jobEnd_outcome (h : (client.watchJobs job.ns job.nameSelector s).Calm) (limit : Nat) :
    (∀ fault, (jobEnd client job limit s).ending = .failed (.api job.name fault) ↔
      client.RefusesJobWatch job limit s fault) ∧
    (∀ finished t, (jobEnd client job limit s).ending = .returned (finished, t) ↔
      client.FinishesJob job limit s finished t) ∧
    ((jobEnd client job limit s).ending = .failed (.jobNotFound job.name) ↔
      client.DeletesJob job limit s) ∧
    ((∀ fault, ¬ client.RefusesJobWatch job limit s fault) →
      (∀ finished t, ¬ client.FinishesJob job limit s finished t) →
      ¬ client.DeletesJob job limit s →
      (jobEnd client job limit s).ending = .failed (.jobNeverCompleted job.name limit)) ∧
    (jobEnd client job limit s).length ≤ limit ∧
    ∀ idle : WatchEvent Job → Bool, (∀ e, idle e = true → JobEnd.Waits e) →
      (jobEnd (client.hushJobs idle) job limit s).ending = (jobEnd client job limit s).ending := by
  have hrefuses {client : Client σ} (fault : Fault) :
      (jobEnd client job limit s).ending = .failed (.api job.name fault) ↔
        client.RefusesJobWatch job limit s fault := by
    rw [jobEnd_failed_iff (by simp)]
    simp
  have hdeletes {client : Client σ} :
      (jobEnd client job limit s).ending = .failed (.jobNotFound job.name) ↔
        client.DeletesJob job limit s := by
    rw [jobEnd_failed_iff (by simp)]
    simp
  refine ⟨hrefuses, fun finished t => jobEnd_returns_iff, hdeletes, ending_jobEnd_of_none h,
    Act.lasts_within _ _ _ _ s, fun idle hidle => ?_⟩
  have hsame (event : WatchEvent Job) (t : σ) :
      ((client.hushJobs idle).watchJobs job.ns job.nameSelector s).DeliversBy JobEnd.Waits limit
        event t ↔
      (client.watchJobs job.ns job.nameSelector s).DeliversBy JobEnd.Waits limit event t :=
    Reply.deliversBy_hush_iff hidle
  have hhushed : ((client.hushJobs idle).watchJobs job.ns job.nameSelector s).Calm := h.hush idle
  have hsameRefusal (fault : Fault) : (client.hushJobs idle).RefusesJobWatch job limit s fault ↔
      client.RefusesJobWatch job limit s fault :=
    exists_congr fun _ => and_congr_left fun _ => Reply.outcome_hush_eq_refused_iff
  have hsameDeletion : (client.hushJobs idle).DeletesJob job limit s ↔
      client.DeletesJob job limit s :=
    exists_congr fun deleted => exists_congr fun t => hsame (.deleted deleted) t
  rcases jobEnd_cases h limit with ⟨⟨finished, t⟩, hreturns⟩ |
    ⟨error, ⟨fault, rfl⟩ | rfl | rfl, hfails⟩
  · rw [hreturns]
    exact jobEnd_returns_iff.2 ((hsame (.applied finished) t).2 (jobEnd_returns_iff.1 hreturns))
  · rw [hfails]
    exact (hrefuses fault).2 ((hsameRefusal fault).2 ((hrefuses fault).1 hfails))
  · rw [hfails]
    exact hdeletes.2 (hsameDeletion.2 (hdeletes.1 hfails))
  · rw [hfails]
    refine ending_jobEnd_of_none hhushed (fun fault hrefused => ?_) (fun finished t hfinished => ?_)
      fun hdeleted => ?_
    · have hother := (hrefuses fault).2 ((hsameRefusal fault).1 hrefused)
      rw [hfails] at hother
      cases hother
    · have hother := jobEnd_returns_iff.2 ((hsame (.applied finished) t).1 hfinished)
      rw [hfails] at hother
      cases hother
    · have hother := hdeletes.2 (hsameDeletion.1 hdeleted)
      rw [hfails] at hother
      cases hother

end JobWatch

/-- A cluster on which the job is deleted just before it would have completed. -/
def Script.deletingJob : Script :=
  { Script.exiting 3 with
    jobs := ⟨1000, none, ⟨[⟨4000, .ok (.applied ⟨some "batch-1", false, []⟩)⟩,
      ⟨5000, .ok (.fault (.watch "jobs" "connection reset"))⟩,
      ⟨20000, .ok (.deleted ⟨some "batch-1", false, []⟩)⟩,
      ⟨0, .ok (.applied Script.completedJob)⟩], true⟩⟩ }

theorem jobEnd_outcome_deletingJob :
    (jobEnd Script.deletingJob.client ⟨"batch-1", "default"⟩ 30000 ()).ending =
      .failed (.jobNotFound "batch-1") := by
  have hcalm : (Script.deletingJob.client.watchJobs "default" "metadata.name=batch-1" ()).Calm :=
    Script.calm_watch rfl (by simp [Script.deletingJob])
  refine (jobEnd_outcome hcalm 30000).2.2.1.2 ⟨⟨some "batch-1", false, []⟩, (), ?_⟩
  refine Script.deliversBy_watch rfl (List.take 2 Script.deletingJob.jobs.answer.events)
    [⟨0, .ok (.applied Script.completedJob)⟩] rfl ?_ id (Nat.le_refl _)
  simp [Script.deletingJob, JobEnd.Waits, Job.hasFailed]

end BatchRun
