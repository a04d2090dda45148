import BatchRun.Proofs.Run.Alike
import BatchRun.Proofs.Run.Calls
import Mathlib.Data.List.Infix

/-!
# Connections

A run opens its connections one after another: the pod watch, the log, the job watch. Each is
released before the next one is opened, the last one before the pod is read back, and none outlives
the run, whether that returns, fails or panics.

* `Hold`, `Deed.hold?`: what is done with connections, `Hold.openAfter`: which are open then;
* `holdPlan`: the connections of a whole run, in order;
* `Course.Follows`, `Course.Completes`: a part of a plan is done, and nothing is left open;
  **`Course.Completes.bind`**: one plan after another;
* `Course.Completes.within`: a deadline releases what is open;
* **`follows_execute`**: a whole run follows its plan;
* `Course.OneAtATime`, `Course.ReleasesAll`: never two connections, and none left open.
-/

namespace BatchRun

variable {σ ε α β : Type}

/-! ## What is open -/

/-- Something that is done with a connection, or the call for which none may be open any more. -/
inductive Hold where
  | opened (connection : Connection)
  | released (connection : Connection)
  | readBack
  deriving DecidableEq

/-- What a deed does with connections. -/
def Deed.hold? : Deed → Option Hold
  | .opened connection => some (.opened connection)
  | .released connection => some (.released connection)
  | .call (.podStatus _ _) => some .readBack
  | _ => none

namespace Hold

/-- The connections that are open after one more hold. -/
def step (held : List Connection) : Hold → List Connection
  | opened connection => connection :: held
  | released connection => held.erase connection
  | readBack => held

/-- The connections that are open after some holds. -/
def openAfter (hs : List Hold) : List Connection := hs.foldl step []

/-- A connection from its opening to its release. -/
def session (connection : Connection) : List Hold := [.opened connection, .released connection]

theorem openAfter_session (connection : Connection) : openAfter (session connection) = [] := by
  cases connection <;> rfl

theorem openAfter_append_of_nil {hs : List Hold} (h : openAfter hs = []) (ks : List Hold) :
    openAfter (hs ++ ks) = openAfter ks := by
  rw [openAfter, List.foldl_append]
  exact congrArg (fun held => ks.foldl step held) h

theorem openAfter_released (hs : List Hold) :
    openAfter (hs ++ (openAfter hs).map .released) = [] := by
  have hall (held : List Connection) : (held.map Hold.released).foldl step held = [] := by
    induction held with
    | nil => rfl
    | cons connection held ih =>
      rw [List.map_cons, List.foldl_cons, step, List.erase_cons_head]
      exact ih
  rw [openAfter, List.foldl_append]
  exact hall (openAfter hs)

end Hold

theorem Deed.hold_eq (d : Deed) (held : List Connection) :
    d.hold held = d.hold?.toList.foldl Hold.step held := by
  cases d with
  | call call => cases call <;> rfl
  | _ => rfl

theorem Entry.stillOpen_eq (es : List Entry) :
    stillOpen es = Hold.openAfter (shown Deed.hold? es) := by
  rw [stillOpen, Hold.openAfter]
  generalize ([] : List Connection) = held
  induction es generalizing held with
  | nil => rfl
  | cons e es ih => rw [List.foldl_cons, ih, shown_cons, List.foldl_append, Deed.hold_eq]

theorem Entry.shown_releases_hold (time : Nat) (held : List Connection) :
    shown Deed.hold? (releases time held) = held.map .released := by
  rw [releases, shown, List.filterMap_map]
  exact congrFun List.filterMap_eq_map _

/-! ## Plans -/

/-- What a whole run does with connections, if nothing goes wrong. -/
def holdPlan (stream : Bool) : List Hold :=
  Hold.session .podWatch ++ ((if stream then Hold.session .log else []) ++
    (Hold.session .jobWatch ++ [.readBack]))

/-- Wherever the plan breaks off, releasing what is open goes on with it. -/
def Hold.Closable (plan : List Hold) : Prop :=
  ∀ hs, hs <+: plan → hs ++ (openAfter hs).map .released <+: plan

theorem Hold.closable_session (connection : Connection) : Closable (session connection) := by
  intro hs h
  rw [← List.mem_inits hs] at h
  revert hs
  cases connection <;> decide

theorem closable_holdPlan (stream : Bool) : Hold.Closable (holdPlan stream) := by
  intro hs h
  rw [← List.mem_inits hs] at h
  revert hs
  cases stream <;> decide

theorem length_openAfter_le {stream : Bool} {hs : List Hold} (h : hs <+: holdPlan stream) :
    (Hold.openAfter hs).length ≤ 1 := by
  rw [← List.mem_inits hs] at h
  revert hs
  cases stream <;> decide

namespace Course

/-- What is done with connections is the start of a plan, and an activity that ends leaves none
open. -/
structure Follows (plan : List Hold) (c : Course ε α) : Prop where
  starts : c.seen Deed.hold? <+: plan
  settled : c.ending.isOver = true → Hold.openAfter (c.seen Deed.hold?) = []

/-- An activity that returns has done all of the plan. -/
structure Completes (plan : List Hold) (c : Course ε α) : Prop extends c.Follows plan where
  complete : ∀ a, c.ending = .returned a → c.seen Deed.hold? = plan

variable {plan later : List Hold} {c : Course ε α}

/-- An activity that has done all of the plan by the time it ends, whichever way. -/
theorem completes_of_isOver (hstarts : c.seen Deed.hold? <+: plan)
    (hover : c.ending.isOver = true → c.seen Deed.hold? = plan)
    (hplan : Hold.openAfter plan = []) : c.Completes plan where
  starts := hstarts
  settled := fun h => hover h ▸ hplan
  complete := fun a ha => hover (by rw [ha]; rfl)

theorem completes_of_seen (h : c.seen Deed.hold? = plan) (hplan : Hold.openAfter plan = []) :
    c.Completes plan := completes_of_isOver (by rw [h]) (fun _ => h) hplan

theorem completes_of_failed {error : ε} (h : c.seen Deed.hold? = [])
    (hfails : c.ending = .failed error) : c.Completes plan where
  starts := by
    rw [h]
    exact List.nil_prefix
  settled := fun _ => by rw [h]; rfl
  complete := by
    intro a ha
    rw [hfails] at ha
    cases ha

theorem Completes.openAfter_eq (h : c.Completes plan) {a : α} (ha : c.ending = .returned a) :
    Hold.openAfter plan = [] := by
  rw [← h.complete a ha]
  exact h.settled (by rw [ha]; rfl)

theorem Completes.bind_follows (h : c.Completes plan) {f : α → Course ε β}
    (hf : ∀ a, c.ending = .returned a → (f a).Follows later) :
    (c.bind f).Follows (plan ++ later) := by
  cases hending : c.ending with
  | returned a =>
    have hseen : (c.bind f).seen Deed.hold? = plan ++ (f a).seen Deed.hold? := by
      rw [seen_bind_of_returned hending, h.complete a hending]
    refine ⟨?_, fun hover => ?_⟩
    · rw [hseen]
      exact (List.prefix_append_right_inj plan).2 (hf a hending).starts
    · rw [hseen, Hold.openAfter_append_of_nil (h.openAfter_eq hending)]
      rw [ending_bind, hending] at hover
      exact (hf a hending).settled hover
  | _ =>
    have hseen : (c.bind f).seen Deed.hold? = c.seen Deed.hold? := by
      rw [seen_bind, hending]
      exact List.append_nil _
    refine ⟨hseen ▸ h.starts.trans (List.prefix_append plan later), fun hover => ?_⟩
    rw [hseen]
    rw [ending_bind, hending] at hover
    exact h.settled (by rw [hending]; exact hover)

theorem Completes.follows_after (h : c.Completes []) {f : α → Course ε β}
    (hf : ∀ a, c.ending = .returned a → (f a).Follows later) : (c.bind f).Follows later :=
  h.bind_follows hf

/-- **One plan is done after another.** -/
theorem Completes.bind (h : c.Completes plan) {f : α → Course ε β}
    (hf : ∀ a, c.ending = .returned a → (f a).Completes later) :
    (c.bind f).Completes (plan ++ later) where
  toFollows := h.bind_follows fun a ha => (hf a ha).toFollows
  complete := by
    intro b hb
    rw [ending_bind, Ending.bind_eq_returned_iff] at hb
    obtain ⟨a, ha, hb⟩ := hb
    rw [seen_bind_of_returned ha, h.complete a ha, (hf a ha).complete b hb]

theorem seen_held_hold (h : c.seen Deed.hold? = []) (connection : Connection) :
    (c.held connection).seen Deed.hold? =
      .opened connection :: if c.ending.isOver then [.released connection] else [] := by
  rw [seen_held_eq, h]
  rfl

theorem completes_held (h : c.seen Deed.hold? = []) (connection : Connection) :
    (c.held connection).Completes (Hold.session connection) := by
  refine completes_of_isOver ?_ (fun hover => ?_) (Hold.openAfter_session connection)
  · rw [seen_held_hold h]
    cases c.ending.isOver <;> simp [Hold.session]
  · rw [seen_held_hold h, show c.ending.isOver = true from hover]
    rfl

/-- **What is open at a deadline is released there.** -/
theorem Completes.within (h : c.Completes plan) (hplan : Hold.Closable plan) (limit : Nat)
    (late : Notice) (error : ε) : (c.within limit late error).Completes plan := by
  unfold Course.within
  split
  · exact h
  · generalize hkept : (c.entries.takeWhile fun (e : Entry) => decide (e.time ≤ limit)) = kept
    have hstarts : Entry.shown Deed.hold? kept <+: plan :=
      hkept ▸ ((List.takeWhile_prefix _).filterMap _).trans h.starts
    have hseen : (⟨kept ++ Entry.releases limit (Entry.stillOpen kept) ++
        [⟨limit, false, .note late⟩], .failed error, limit⟩ : Course ε α).seen Deed.hold? =
        Entry.shown Deed.hold? kept ++
          (Hold.openAfter (Entry.shown Deed.hold? kept)).map .released := by
      rw [seen, Entry.shown_append, Entry.shown_append, Entry.shown_releases_hold,
        Entry.stillOpen_eq]
      exact List.append_nil _
    refine ⟨⟨?_, fun _ => ?_⟩, fun _ hreturned => ?_⟩
    · rw [hseen]
      exact hplan _ hstarts
    · rw [hseen]
      exact Hold.openAfter_released _
    · cases hreturned

end Course

/-! ## Stages -/

namespace Act

variable {plan later : List Hold} {s : σ}

theorem completes_note (notice : Notice) (s : σ) :
    (note notice s : Course ε _).Completes [] := Course.completes_of_seen rfl rfl

theorem completes_fail (error : ε) (s : σ) :
    (fail error s : Course ε (α × σ)).Completes plan := Course.completes_of_failed rfl rfl

theorem completes_bind {x : Act σ ε α} {f : α → Act σ ε β} (hx : (x s).Completes plan)
    (hf : ∀ a t, (x s).ending = .returned (a, t) → (f a t).Completes later) :
    ((x >>= f) s).Completes (plan ++ later) := hx.bind fun p hp => hf p.1 p.2 hp

theorem completes_after {x : Act σ ε α} {f : α → Act σ ε β} (hx : (x s).Completes [])
    (hf : ∀ a t, (x s).ending = .returned (a, t) → (f a t).Completes plan) :
    ((x >>= f) s).Completes plan := completes_bind hx hf

theorem completes_before {x : Act σ ε α} {f : α → Act σ ε β} (hx : (x s).Completes plan)
    (hf : ∀ a t, (x s).ending = .returned (a, t) → (f a t).Completes []) :
    ((x >>= f) s).Completes plan := by
  have hboth := completes_bind hx hf
  rwa [List.append_nil] at hboth

theorem seen_ask_hold (call : Call) (reply : σ → Reply σ α) (s : σ) :
    (ask call reply s : Course ε _).seen Deed.hold? = (Deed.hold? (.call call)).toList := by
  have hreply : (reply s).deeds.filterMap Deed.hold? = [] :=
    Reply.filterMap_deeds (fun _ => rfl) (fun _ => rfl) (fun _ => rfl) _
  rw [seen_ask_of_answered rfl, hreply, List.append_nil]

theorem completes_ask {call : Call} (h : Deed.hold? (.call call) = none) (reply : σ → Reply σ α)
    (s : σ) : (ask call reply s : Course ε _).Completes [] :=
  Course.completes_of_seen (by rw [seen_ask_hold, h]; rfl) rfl

theorem completes_follow {κ : Type} (react : κ → WatchEvent α → Reaction κ β) (k : κ)
    (feed : Feed σ α) (connection : Connection) (s : σ) :
    (held connection (follow react k feed) s : Course ε _).Completes (Hold.session connection) :=
  Course.completes_held (seen_followSteps (fun _ => rfl) (fun _ => rfl) _ _ _ _) connection

theorem completes_onWorker {x : Act σ LifecycleError α} (h : (x s).Completes plan)
    (stage : String) : (Act.onWorker stage x s).Completes plan := by
  have hseen : (Act.onWorker stage x s).seen Deed.hold? = (x s).seen Deed.hold? :=
    seen_onWorker (fun _ => rfl) rfl stage x s
  have hover : (Act.onWorker stage x s).ending.isOver = (x s).ending.isOver := by
    rw [ending_onWorker]
    cases (x s).ending <;> rfl
  refine ⟨⟨?_, fun hends => ?_⟩, fun p hp => ?_⟩
  · rw [hseen]
    exact h.starts
  · rw [hseen]
    exact h.settled (hover ▸ hends)
  · rw [hseen]
    exact h.complete p (onWorker_returns_iff.1 hp)

end Act

section Stages

variable (client : Client σ) (config : JobConfig) (job : JobIdentity)

theorem completes_submit (manifest : Document) (ns : String) (s : σ) :
    (submit client manifest ns s).Completes [] := by
  refine Act.completes_after (Act.completes_ask rfl _ s) fun answer t _ => ?_
  cases answer with
  | error f => exact Act.completes_fail _ t
  | ok made =>
    cases hname : made.name with
    | none =>
      simp only [hname]
      exact Act.completes_fail _ t
    | some name =>
      simp only [hname]
      exact Act.completes_after (Act.completes_note _ t) fun _ _ _ =>
        Course.completes_of_seen rfl rfl

theorem completes_podStart (limit : Nat) (s : σ) :
    (podStart client job limit s).Completes (Hold.session .podWatch) := by
  refine Course.Completes.within ?_ (Hold.closable_session _) limit _ _
  rw [firstStarted, Act.bind_assoc]
  refine Act.completes_after (Act.completes_note _ s) fun _ s' _ => ?_
  rw [Act.bind_assoc]
  refine Act.completes_after (Act.completes_ask rfl _ s') fun answer t _ => ?_
  cases answer with
  | error f => exact Course.completes_of_failed rfl rfl
  | ok feed =>
    refine Act.completes_before (Act.completes_follow _ none feed .podWatch t)
      fun result u _ => ?_
    cases result with
    | none =>
      exact Act.completes_bind (Act.completes_note _ u) fun _ v _ => Act.completes_fail _ v
    | some pod => exact Course.completes_of_seen rfl rfl

theorem completes_jobEnd (limit : Nat) (s : σ) :
    (jobEnd client job limit s).Completes (Hold.session .jobWatch) := by
  refine Course.Completes.within ?_ (Hold.closable_session _) limit _ _
  refine Act.completes_after (Act.completes_note _ s) fun _ s' _ => ?_
  refine Act.completes_after (Act.completes_ask rfl _ s') fun answer t _ => ?_
  cases answer with
  | error f => exact Act.completes_fail _ t
  | ok feed =>
    refine Act.completes_before (Act.completes_follow _ () feed .jobWatch t)
      fun result u _ => ?_
    rcases result with _ | error | finished
    · exact Act.completes_bind (Act.completes_note _ u) fun _ v _ => Act.completes_fail _ v
    · exact Act.completes_fail _ u
    · exact Course.completes_of_seen rfl rfl

theorem seen_followOutput_hold (pod : String) (container : Option String) (s : σ) :
    (followOutput client job pod container s : Course ε _).seen Deed.hold? =
      .opened .log :: if (followOutput client job pod container s : Course ε _).ending.isOver then
        [.released .log] else [] := by
  have hask := @Act.seen_ask_hold _ ε _ (.followLogs job.ns pod container)
    (client.followLogs job.ns pod container) s
  have hover : (followOutput client job pod container s : Course ε _).ending.isOver =
      (Act.ask (.followLogs job.ns pod container) (client.followLogs job.ns pod container) s :
        Course ε _).ending.isOver := by
    rw [ending_followOutput, Act.ending_ask]
    cases (client.followLogs job.ns pod container s).outcome <;> rfl
  rw [hover, ← Course.seen_held_hold hask, followOutput, Act.bind_apply, Act.note_apply,
    Course.seen_bind_of_returned rfl]
  refine Course.seen_bind_of_forall fun p => ?_
  rcases p with ⟨_ | _, t⟩ <;> rfl

theorem completes_logStage (pod : Pod) (name : String) (s : σ) :
    (logStage client config job pod name s).Completes
      (if config.streamOutput then Hold.session .log else []) := by
  unfold logStage
  cases config.streamOutput with
  | false => exact Course.completes_of_seen rfl rfl
  | true =>
    have hseen : (Act.detached "logs" (followOutput client job name pod.primaryContainer?) s :
        Course LifecycleError _).seen Deed.hold? = _ :=
      Act.seen_detached (fun _ => rfl) rfl (fun _ => rfl) _ _ s
    have hover : (Act.detached "logs" (followOutput client job name pod.primaryContainer?) s :
        Course LifecycleError _).ending.isOver =
        (followOutput client job name pod.primaryContainer? s :
          Course Empty _).ending.isOver := by
      rw [Act.ending_detached]
      cases (followOutput client job name pod.primaryContainer? s : Course Empty _).ending <;> rfl
    refine Course.completes_of_isOver ?_ (fun h => ?_) rfl
    · rw [if_pos rfl, hseen, seen_followOutput_hold]
      split <;> simp [Hold.session]
    · rw [if_pos rfl] at h ⊢
      rw [hseen, seen_followOutput_hold, ← hover, if_pos h]
      rfl

theorem completes_exitResult (pod : String) (s : σ) :
    (exitResult client job pod s).Completes [.readBack] := by
  refine Course.completes_of_seen ?_ rfl
  rw [exitResult, Act.bind_apply, Course.seen_bind_of_forall, Act.seen_ask_hold]
  · rfl
  rintro ⟨answer, t⟩
  rcases answer with f | _ | observed
  · rfl
  · rfl
  · cases hcode : observed.exitCode? with
    | none =>
      simp only [hcode]
      rfl
    | some code =>
      simp only [hcode]
      rfl

theorem completes_monitor (s : σ) :
    (monitor client config job s).Completes (holdPlan config.streamOutput) := by
  rw [monitor_eq]
  refine Act.completes_after (Act.completes_ask rfl _ s) fun answer t _ => ?_
  rcases answer with f | _ | found
  · exact Act.completes_fail _ t
  · exact Act.completes_fail _ t
  refine Act.completes_bind (Act.completes_onWorker (completes_podStart client job _ t) _)
    fun pod u _ => ?_
  unfold afterPod
  cases pod.name with
  | none => exact Act.completes_fail _ u
  | some name =>
    exact Act.completes_bind (completes_logStage client config job pod name u) fun _ v _ =>
      Act.completes_bind (Act.completes_onWorker (completes_jobEnd client job _ v) _) fun _ w _ =>
        completes_exitResult client job name w

end Stages

/-! ## The whole run -/

theorem follows_settle (job : JobIdentity) {plan : List Hold} {c : Course LifecycleError RunResult}
    (h : c.Completes plan) : (settle job c).Follows plan := by
  have hseen : (settle job c).seen Deed.hold? = c.seen Deed.hold? := by
    unfold settle Course.seen
    cases c.ending <;> simp [Deed.hold?]
  have hover : (settle job c).ending.isOver = c.ending.isOver := by
    unfold settle
    cases c.ending <;> rfl
  exact ⟨hseen ▸ h.starts, fun hends => hseen ▸ h.settled (hover ▸ hends)⟩

theorem follows_execute (client : Client σ) (config : JobConfig) (listener : Listener) (s : σ) :
    (execute client config listener s).Follows (holdPlan config.streamOutput) := by
  unfold execute
  cases config.manifest with
  | error e => exact (Course.completes_of_failed rfl rfl).toFollows
  | ok manifest =>
    refine Course.Completes.follows_after (Course.completes_of_seen rfl rfl) fun _ _ => ?_
    refine (completes_submit client manifest _ s).follows_after fun p _ => ?_
    refine Course.Completes.follows_after
      (Course.completes_of_seen (by cases listener <;> rfl) rfl) fun _ _ => ?_
    refine follows_settle p.1 ?_
    have hmonitor : ((monitor client config p.1 p.2).bind fun q => ⟨[], .returned q.1, 0⟩ :
        Course LifecycleError RunResult).Completes (holdPlan config.streamOutput ++ []) :=
      (completes_monitor client config p.1 p.2).bind fun _ _ => Course.completes_of_seen rfl rfl
    rwa [List.append_nil] at hmonitor

namespace Hold

/-- The connection that is opened. -/
def opened? : Hold → Option Connection
  | opened connection => some connection
  | _ => none

/-- The connection that is released. -/
def released? : Hold → Option Connection
  | released connection => some connection
  | _ => none

end Hold

namespace Course

theorem openings_eq (c : Course ε α) :
    c.openings = (c.seen Deed.hold?).filterMap Hold.opened? := by
  rw [openings, seen, Entry.shown, List.filterMap_filterMap]
  refine List.filterMap_congr fun e _ => ?_
  cases e.deed with
  | call call => cases call <;> rfl
  | _ => rfl

theorem releases_eq (c : Course ε α) :
    c.releases = (c.seen Deed.hold?).filterMap Hold.released? := by
  rw [releases, seen, Entry.shown, List.filterMap_filterMap]
  refine List.filterMap_congr fun e _ => ?_
  cases e.deed with
  | call call => cases call <;> rfl
  | _ => rfl

/-- Connections are opened in the order of the plan, none twice, and at no moment are two open. -/
structure OneAtATime (stream : Bool) (c : Course ε α) : Prop where
  order : c.seen Deed.hold? <+: holdPlan stream
  nodup : c.openings.Nodup
  single : ∀ es, es <+: c.entries → (Entry.stillOpen es).length ≤ 1

/-- Every connection that was opened has been released, once. -/
structure ReleasesAll (c : Course ε α) : Prop where
  none_open : Entry.stillOpen c.entries = []
  releases_eq : c.releases = c.openings

variable {c : Course ε α} {stream : Bool}

theorem oneAtATime_of_prefix (h : c.seen Deed.hold? <+: holdPlan stream) : c.OneAtATime stream where
  order := h
  nodup := by
    rw [openings_eq]
    refine List.Nodup.sublist (h.filterMap Hold.opened?).sublist ?_
    cases stream <;> decide
  single := by
    intro es hes
    rw [Entry.stillOpen_eq]
    exact length_openAfter_le ((hes.filterMap _).trans h)

theorem releasesAll_of_prefix (h : c.seen Deed.hold? <+: holdPlan stream)
    (hnone : Hold.openAfter (c.seen Deed.hold?) = []) : c.ReleasesAll where
  none_open := by rw [Entry.stillOpen_eq]; exact hnone
  releases_eq := by
    rw [openings_eq, releases_eq]
    generalize c.seen Deed.hold? = hs at h hnone
    rw [← List.mem_inits hs] at h
    revert hs
    cases stream <;> decide

end Course

end BatchRun
