import BatchRun.Proofs.Run.Course
import BatchRun.Run.Client
import Mathlib.Algebra.GroupWithZero.Nat

/-!
# Asking a client and following a watch

* `Act.gives_bind_iff`, `Act.orderly_bind`: two activities in a row, with the client in between;
* `Reply.ending_course`, `Reply.length_course`, `Reply.seen_course`: what comes of a call;
* `Act.gives_ask_iff`, `Act.orderly_ask_iff`, `Act.opens_ask`: a call;
* `Step.Delivers`: among the steps of a watch, the first event that is not waited past;
* **`Act.gives_follow_iff`**: a watch is followed up to exactly that event.
-/

namespace BatchRun

variable {σ ε α β γ κ : Type}

namespace Act

/-! ## Activities in a row -/

theorem bind_apply (x : Act σ ε α) (f : α → Act σ ε β) (s : σ) :
    (x >>= f) s = (x s).bind fun (p : α × σ) => f p.1 p.2 := rfl

theorem pure_apply (a : α) (s : σ) :
    (Pure.pure a : Act σ ε α) s = ⟨[], .returned (a, s), 0⟩ := rfl

theorem pure_bind (a : α) (f : α → Act σ ε β) : (Pure.pure a >>= f) = f a := by
  funext s
  exact Course.pure_bind (a, s) fun (p : α × σ) => f p.1 p.2

theorem bind_assoc (x : Act σ ε α) (f : α → Act σ ε β) (g : β → Act σ ε γ) :
    (x >>= f) >>= g = x >>= fun (a : α) => f a >>= g := by
  funext s
  exact Course.bind_assoc (x s) (fun (p : α × σ) => f p.1 p.2) fun (p : β × σ) => g p.1 p.2

theorem note_apply (notice : Notice) (s : σ) :
    (note notice : Act σ ε Unit) s = ⟨[⟨0, false, .note notice⟩], .returned ((), s), 0⟩ := rfl

theorem gives_bind_iff {x : Act σ ε α} {f : α → Act σ ε β} {s t : σ} {b : β} {n : Nat} :
    ((x >>= f) s).Gives (b, t) n ↔
      ∃ a s' m k, (x s).Gives (a, s') m ∧ (f a s').Gives (b, t) k ∧ n = m + k := by
  rw [bind_apply, Course.gives_bind_iff]
  constructor
  · rintro ⟨⟨a, s'⟩, m, k, h⟩
    exact ⟨a, s', m, k, h⟩
  · rintro ⟨a, s', m, k, h⟩
    exact ⟨(a, s'), m, k, h⟩

theorem ending_bind (x : Act σ ε α) (f : α → Act σ ε β) (s : σ) :
    ((x >>= f) s).ending = (x s).ending.bind fun (p : α × σ) => (f p.1 p.2).ending :=
  Course.ending_bind _ _

theorem ending_bind_eq_returned_iff {x : Act σ ε α} {f : α → Act σ ε β} {s t : σ} {b : β} :
    ((x >>= f) s).ending = .returned (b, t) ↔
      ∃ a s', (x s).ending = .returned (a, s') ∧ (f a s').ending = .returned (b, t) := by
  rw [ending_bind, Ending.bind_eq_returned_iff, Prod.exists]

theorem orderly_bind {x : Act σ ε α} {f : α → Act σ ε β} {s : σ} (hx : (x s).ending.Orderly)
    (hf : ∀ a s', (x s).ending = .returned (a, s') → (f a s').ending.Orderly) :
    ((x >>= f) s).ending.Orderly := by
  rw [ending_bind]
  exact hx.bind fun p hp => hf p.1 p.2 hp

theorem gives_pure_iff {a b : α} {s t : σ} {n : Nat} :
    ((Pure.pure a : Act σ ε α) s).Gives (b, t) n ↔ b = a ∧ t = s ∧ n = 0 := by
  rw [pure_apply, Course.Gives]
  simp [eq_comm, and_assoc]

theorem gives_note_bind_iff {notice : Notice} {f : Unit → Act σ ε β} {s t : σ} {b : β} {n : Nat} :
    ((note notice >>= f) s).Gives (b, t) n ↔ (f () s).Gives (b, t) n := by
  rw [bind_apply, note_apply, Course.bind]
  simp [Course.Gives]

theorem not_gives_fail {error : ε} {s : σ} {p : α × σ} {n : Nat} :
    ¬ ((fail error : Act σ ε α) s).Gives p n := by
  rintro ⟨h, _⟩
  cases h

/-! ## Calls -/

end Act

namespace Reply

variable {view : Deed → Option γ}

/-- What the client does during a call, in order. -/
def deeds (r : Reply σ α) : List Deed :=
  r.remarks.map Remark.deed ++
    r.lines.map fun (line : Timed String) => .line (outputLine line.value)

theorem ending_forward (lines : List (Timed String)) :
    (forward lines : Course ε Unit).ending = .returned () := by
  induction lines with
  | nil => rfl
  | cons line lines ih =>
    rw [forward, Course.ending_bind]
    exact ih

theorem length_forward (lines : List (Timed String)) :
    (forward lines : Course ε Unit).length = Timed.total lines := by
  induction lines with
  | nil => rfl
  | cons line lines ih =>
    rw [forward, Course.length_bind, Timed.total, ← ih]
    exact congrArg (line.wait + ·) (Nat.zero_add _)

theorem seen_forward (view : Deed → Option γ) (lines : List (Timed String)) :
    (forward lines : Course ε Unit).seen view =
      (lines.map fun (line : Timed String) => Deed.line (outputLine line.value)).filterMap view := by
  induction lines with
  | nil => rfl
  | cons line lines ih =>
    rw [forward, Course.seen_bind_of_returned rfl, Course.seen_bind_of_returned rfl, ih,
      List.map_cons, ← List.singleton_append, List.filterMap_append]
    rfl

theorem ending_course (r : Reply σ α) : (r.course : Course ε _).ending = r.outcome.ending := by
  rw [course, Course.ending_bind]
  show (Course.bind _ _).ending = _
  rw [Course.ending_bind, ending_forward]
  rfl

theorem length_course (r : Reply σ α) : (r.course : Course ε _).length = r.delay := by
  rw [course, Course.length_bind]
  show 0 + (Course.bind _ _).length = _
  rw [Course.length_bind, ending_forward, length_forward, Nat.zero_add]
  rfl

theorem seen_course (view : Deed → Option γ) (r : Reply σ α) :
    (r.course : Course ε _).seen view = r.deeds.filterMap view := by
  rw [course, Course.seen_bind_of_returned rfl, Course.seen_bind_of_returned (ending_forward _),
    seen_forward, deeds, List.filterMap_append]
  refine congrArg₂ _ ?_ (List.append_nil _)
  rw [Course.seen, Entry.shown, List.filterMap_map, List.filterMap_map]
  rfl

theorem filterMap_deeds (hnote : ∀ n, view (.note n) = none)
    (hrequest : ∀ r, view (.request r) = none) (hline : ∀ text, view (.line text) = none)
    (r : Reply σ α) : r.deeds.filterMap view = [] := by
  rw [List.filterMap_eq_nil_iff]
  intro d hd
  rcases List.mem_append.1 hd with h | h
  · obtain ⟨remark, _, rfl⟩ := List.mem_map.1 h
    cases remark with
    | note n => exact hnote n
    | request r => exact hrequest r
  · obtain ⟨l, _, rfl⟩ := List.mem_map.1 h
    exact hline _

end Reply

namespace Act

theorem ending_ask (call : Call) (reply : σ → Reply σ α) (s : σ) :
    (ask call reply s : Course ε _).ending = (reply s).outcome.ending := by
  rw [ask, Course.ending_bind]
  show (Course.bind _ _).ending = _
  rw [Course.ending_bind, Reply.ending_course]
  cases (reply s).outcome <;> rfl

theorem length_ask (call : Call) (reply : σ → Reply σ α) (s : σ) :
    (ask call reply s : Course ε _).length = (reply s).delay := by
  rw [ask, Course.length_bind]
  show 0 + (Course.bind _ _).length = _
  rw [Course.length_bind, Reply.length_course, Reply.ending_course, Nat.zero_add]
  cases (reply s).outcome <;> rfl

theorem ending_ask_eq_returned_iff {call : Call} {reply : σ → Reply σ α} {s t : σ}
    {answer : Except Fault α} : (ask call reply s : Course ε _).ending = .returned (answer, t) ↔
      (reply s).outcome = .returns answer t := by
  rw [ending_ask]
  cases (reply s).outcome <;> simp [Outcome.ending]

theorem gives_ask_iff {call : Call} {reply : σ → Reply σ α} {s t : σ} {answer : Except Fault α}
    {n : Nat} : (ask call reply s : Course ε _).Gives (answer, t) n ↔
      (reply s).outcome = .returns answer t ∧ n = (reply s).delay := by
  rw [Course.Gives, ending_ask_eq_returned_iff, length_ask]
  exact and_congr Iff.rfl eq_comm

theorem orderly_ask_iff {call : Call} {reply : σ → Reply σ α} {s : σ} :
    (ask call reply s : Course ε _).ending.Orderly ↔
      ∃ answer t, (reply s).outcome = .returns answer t := by
  rw [ending_ask]
  cases (reply s).outcome <;> simp [Ending.Orderly, Outcome.ending]

variable {view : Deed → Option γ}

/-- Behind the call, a view sees what the client does and that the call comes back. -/
theorem seen_ask_eq (view : Deed → Option γ) (call : Call) (reply : σ → Reply σ α) (s : σ) :
    (ask call reply s : Course ε _).seen view = (view (.call call)).toList ++
      ((reply s).deeds.filterMap view ++
        match (reply s).outcome with
        | .returns _ _ => (view (.answered call)).toList
        | _ => []) := by
  rw [ask, Course.seen_bind_of_returned rfl, Course.seen_bind, Reply.seen_course,
    Reply.ending_course]
  cases (reply s).outcome <;>
    simp [Course.seen, Course.deed, Course.bind, Course.pure, Outcome.ending, Ending.value?]

theorem seen_ask_of_answered {call : Call} (h : view (.answered call) = none)
    (reply : σ → Reply σ α) (s : σ) : (ask call reply s : Course ε _).seen view =
      (view (.call call)).toList ++ (reply s).deeds.filterMap view := by
  rw [seen_ask_eq, h]
  cases (reply s).outcome <;> simp

theorem opens_ask (hview : Deed.Sparse view) (call : Call) (reply : σ → Reply σ α) (s : σ) :
    (ask call reply s : Course ε _).Opens view (view (.call call)).toList := by
  have hrest := seen_ask_of_answered (ε := ε) (hview.answered call) reply s
  rw [Reply.filterMap_deeds hview.note hview.request hview.line, ask, Course.seen,
    Course.entries_bind] at hrest
  rw [Course.Opens, ask, Course.entries_bind]
  refine ⟨_, _, rfl, by simp [Course.deed], by simp [Course.deed], ?_⟩
  simpa [Course.deed] using hrest

theorem seen_ask (hview : Deed.Sparse view) (call : Call) (reply : σ → Reply σ α) (s : σ) :
    (ask call reply s : Course ε _).seen view = (view (.call call)).toList :=
  (opens_ask hview call reply s).seen_eq

theorem seen_note (hview : Deed.Sparse view) (notice : Notice) (s : σ) :
    (note notice s : Course ε _).seen view = [] := by
  rw [note_apply, Course.seen, Entry.shown_cons, hview.note]
  rfl

theorem note_bind_apply (notice : Notice) (f : Unit → Act σ ε β) (s : σ) :
    (note notice >>= f) s = (Course.deed (.note notice)).bind fun _ => f () s := rfl

theorem opens_note_bind (hview : Deed.Sparse view) {notice : Notice} {f : Unit → Act σ ε β} {s : σ}
    {shown : List γ} (h : (f () s).Opens view shown) :
    ((note notice >>= f) s).Opens view shown := by
  rw [note_bind_apply]
  exact h.after_deed (hview.note notice)

theorem seen_note_bind (hview : Deed.Sparse view) (notice : Notice) (f : Unit → Act σ ε β) (s : σ) :
    ((note notice >>= f) s).seen view = (f () s).seen view := by
  rw [bind_apply, Course.seen_bind_of_returned rfl, seen_note hview]
  rfl

end Act

/-! ## Watches -/

namespace Step

/-- The step delivers nothing, or an event that is waited past. -/
def Silent (waits : WatchEvent α → Prop) (step : Step σ α) : Prop :=
  ∀ item, step.item = some item → ∃ event, item = .ok event ∧ waits event

/-- How long steps take together. -/
def waited (steps : List (Step σ α)) : Nat := (steps.map Step.wait).sum

/-- The first event that is not waited past comes after so many milliseconds and leaves the client
in a state; nothing panics before it. -/
def Delivers (waits : WatchEvent α → Prop) (steps : List (Step σ α)) (event : WatchEvent α)
    (time : Nat) (client : σ) : Prop :=
  ∃ before step after, steps = before ++ step :: after ∧ (∀ b ∈ before, b.Silent waits) ∧
    step.item = some (.ok event) ∧ ¬ waits event ∧ time = waited before + step.wait ∧
    client = step.client

variable {waits : WatchEvent α → Prop} {event : WatchEvent α} {time : Nat} {client : σ}

theorem not_delivers_nil : ¬ Delivers waits ([] : List (Step σ α)) event time client := by
  rintro ⟨before, step, after, h, _⟩
  cases before <;> cases h

theorem silent_of_none {step : Step σ α} (h : step.item = none) : step.Silent waits := by
  intro item hitem
  rw [h] at hitem
  cases hitem

theorem not_silent_of_error {step : Step σ α} {message : String}
    (h : step.item = some (.error message)) : ¬ step.Silent waits := by
  intro hsilent
  obtain ⟨_, hevent, _⟩ := hsilent _ h
  cases hevent

theorem silent_iff_of_ok {step : Step σ α} {event : WatchEvent α}
    (h : step.item = some (.ok event)) : step.Silent waits ↔ waits event := by
  constructor
  · intro hsilent
    obtain ⟨e, he, hwaits⟩ := hsilent _ h
    cases he
    exact hwaits
  · intro hwaits item hitem
    rw [h] at hitem
    cases hitem
    exact ⟨event, rfl, hwaits⟩

theorem delivers_cons_of_silent {step : Step σ α} {steps : List (Step σ α)}
    (h : step.Silent waits) : Delivers waits (step :: steps) event time client ↔
      ∃ later, Delivers waits steps event later client ∧ time = step.wait + later := by
  constructor
  · rintro ⟨before, last, after, hsplit, hsilent, hitem, hwaits, htime, hclient⟩
    cases before with
    | nil =>
      cases hsplit
      exact absurd ((silent_iff_of_ok hitem).1 h) hwaits
    | cons b before =>
      cases hsplit
      refine ⟨waited before + last.wait, ⟨before, last, after, rfl,
        (List.forall_mem_cons.1 hsilent).2, hitem, hwaits, rfl, hclient⟩, ?_⟩
      rw [htime, waited, List.map_cons, List.sum_cons, Nat.add_assoc]
      rfl
  · rintro ⟨later, ⟨before, last, after, rfl, hsilent, hitem, hwaits, rfl, hclient⟩, htime⟩
    refine ⟨step :: before, last, after, rfl, List.forall_mem_cons.2 ⟨h, hsilent⟩, hitem, hwaits,
      ?_, hclient⟩
    rw [htime, waited, waited, List.map_cons, List.sum_cons, Nat.add_assoc]

theorem delivers_cons_of_not_silent {step : Step σ α} {steps : List (Step σ α)}
    (h : ¬ step.Silent waits) : Delivers waits (step :: steps) event time client ↔
      step.item = some (.ok event) ∧ time = step.wait ∧ client = step.client := by
  constructor
  · rintro ⟨before, last, after, hsplit, hsilent, hitem, hwaits, htime, hclient⟩
    cases before with
    | nil =>
      cases hsplit
      exact ⟨hitem, by simpa [waited] using htime, hclient⟩
    | cons b before =>
      cases hsplit
      exact absurd (List.forall_mem_cons.1 hsilent).1 h
  · rintro ⟨hitem, htime, hclient⟩
    have hwaits : ¬ waits event := fun hw => h ((silent_iff_of_ok hitem).2 hw)
    exact ⟨[], step, steps, rfl, by simp, hitem, hwaits, by simpa [waited] using htime, hclient⟩

end Step

namespace Act

variable {react : κ → WatchEvent α → Reaction κ β} {verdict : WatchEvent α → Option β}

theorem gives_arrive_bind_iff {step : Step σ α} {f : Unit → Act σ ε β} {s t : σ} {b : β} {n : Nat} :
    ((arrive step >>= f) s).Gives (b, t) n ↔
      ∃ k, (f () step.client).Gives (b, t) k ∧ n = step.wait + k := by
  rw [bind_apply, Course.gives_bind_iff]
  constructor
  · rintro ⟨a, m, k, ⟨ha, rfl⟩, hk, rfl⟩
    cases ha
    exact ⟨k, hk, rfl⟩
  · rintro ⟨k, hk, rfl⟩
    exact ⟨_, step.wait, k, ⟨rfl, rfl⟩, hk, rfl⟩

theorem gives_notes_bind_iff {ns : List Notice} {f : Unit → Act σ ε β} {s t : σ} {b : β} {n : Nat} :
    ((notes ns >>= f) s).Gives (b, t) n ↔ (f () s).Gives (b, t) n := by
  have hnotes : (notes ns s : Course ε (Unit × σ)).ending = .returned ((), s) ∧
      (notes ns s : Course ε (Unit × σ)).length = 0 := by
    induction ns with
    | nil => exact ⟨rfl, rfl⟩
    | cons m ns ih =>
      rw [notes, bind_apply, note_apply, Course.bind]
      simpa using ih
  rw [bind_apply, Course.gives_bind_iff]
  constructor
  · rintro ⟨a, m, k, ⟨ha, rfl⟩, hk, rfl⟩
    rw [hnotes.1] at ha
    cases ha
    rw [hnotes.2, Nat.zero_add]
    exact hk
  · intro h
    exact ⟨((), s), 0, n, hnotes, h, (Nat.zero_add n).symm⟩

theorem gives_followSteps_iff (hreact : ∀ k e, (react k e).next.getRight? = verdict e)
    {closes : Bool} {k : κ} {steps : List (Step σ α)} {s t : σ} {b : β} {n : Nat} :
    (followSteps react closes k steps s : Course ε _).Gives (some b, t) n ↔
      ∃ e, verdict e = some b ∧ Step.Delivers (fun e => verdict e = none) steps e n t := by
  induction steps generalizing k s n with
  | nil =>
    have hleft : ¬ (followSteps react closes k [] s : Course ε _).Gives (some b, t) n := by
      rintro ⟨h, _⟩
      rw [followSteps] at h
      cases closes <;> cases h
    refine ⟨fun h => absurd h hleft, ?_⟩
    rintro ⟨e, _, h⟩
    exact absurd h Step.not_delivers_nil
  | cons step rest ih =>
    rw [followSteps, gives_arrive_bind_iff]
    -- a silent step hands over to the rest of the watch, any other one settles it
    have hrest (hsilent : step.Silent fun e => verdict e = none) (k' : κ) :
        (∃ m, (followSteps react closes k' rest step.client : Course ε _).Gives (some b, t) m ∧
          n = step.wait + m) ↔
        ∃ e, verdict e = some b ∧
          Step.Delivers (fun e => verdict e = none) (step :: rest) e n t := by
      simp only [ih, Step.delivers_cons_of_silent hsilent]
      constructor
      · rintro ⟨m, ⟨e, he, hlater⟩, hn⟩
        exact ⟨e, he, m, hlater, hn⟩
      · rintro ⟨e, he, m, hlater, hn⟩
        exact ⟨m, ⟨e, he, hlater⟩, hn⟩
    cases hitem : step.item with
    | none => exact hrest (Step.silent_of_none hitem) k
    | some item =>
      cases item with
      | error message =>
        simp only [Step.delivers_cons_of_not_silent (Step.not_silent_of_error hitem), hitem]
        constructor
        · rintro ⟨m, ⟨h, _⟩, _⟩
          cases h
        · rintro ⟨e, _, h, _⟩
          cases h
      | ok event =>
        have hsilent : step.Silent (fun e => verdict e = none) ↔ verdict event = none :=
          Step.silent_iff_of_ok hitem
        have hnext := hreact k event
        simp only [gives_notes_bind_iff]
        cases hr : (react k event).next with
        | inl k' =>
          rw [hr] at hnext
          exact hrest (hsilent.2 hnext.symm) k'
        | inr decision =>
          rw [hr] at hnext
          have hdecide : verdict event = some decision := hnext.symm
          have hloud : ¬ step.Silent fun e => verdict e = none := by
            rw [hsilent, hdecide]
            simp
          simp only [Step.delivers_cons_of_not_silent hloud, hitem]
          constructor
          · rintro ⟨m, ⟨hb, rfl⟩, rfl⟩
            cases hb
            exact ⟨event, hdecide, rfl, rfl, rfl⟩
          · rintro ⟨e, he, hevent, rfl, rfl⟩
            cases hevent
            rw [hdecide] at he
            cases he
            exact ⟨0, ⟨rfl, rfl⟩, rfl⟩

/-- **A watch is followed up to the first event that decides.** -/
theorem gives_follow_iff (hreact : ∀ k e, (react k e).next.getRight? = verdict e) {k : κ}
    {feed : Feed σ α} {s t : σ} {b : β} {n : Nat} :
    (follow react k feed s : Course ε _).Gives (some b, t) n ↔
      ∃ e, verdict e = some b ∧ Step.Delivers (fun e => verdict e = none) feed.steps e n t :=
  gives_followSteps_iff hreact

variable {view : Deed → Option γ}

theorem seen_notes (hnote : ∀ n, view (.note n) = none) (ns : List Notice) (s : σ) :
    (notes ns s : Course ε _).seen view = [] := by
  induction ns generalizing s with
  | nil => rfl
  | cons m ns ih =>
    rw [notes, bind_apply, Course.seen_bind_of_forall fun (p : Unit × σ) => ih p.2]
    simp [note_apply, Course.seen, hnote]

theorem seen_arrive (hnote : ∀ n, view (.note n) = none) (hrequest : ∀ r, view (.request r) = none)
    (step : Step σ α) (s : σ) : (arrive step s : Course ε _).seen view = [] := by
  refine (Entry.shown_eq_nil_iff view).2 fun e he => ?_
  obtain ⟨remark, _, rfl⟩ := List.mem_map.1 he
  cases remark with
  | note n => exact hnote n
  | request r => exact hrequest r

theorem seen_followSteps (hnote : ∀ n, view (.note n) = none)
    (hrequest : ∀ r, view (.request r) = none) (closes : Bool) (k : κ) (steps : List (Step σ α))
    (s : σ) : (followSteps react closes k steps s : Course ε _).seen view = [] := by
  induction steps generalizing k s with
  | nil =>
    rw [followSteps]
    cases closes <;> rfl
  | cons step rest ih =>
    rw [followSteps, bind_apply, Course.seen_bind_of_forall, seen_arrive hnote hrequest]
    rintro ⟨_, s'⟩
    cases step.item with
    | none => exact ih k s'
    | some item =>
      cases item with
      | error message => rfl
      | ok event =>
        simp only [bind_apply]
        rw [Course.seen_bind_of_forall, seen_notes hnote]
        rintro ⟨_, s''⟩
        cases (react k event).next with
        | inl k' => exact ih k' s''
        | inr decision => rfl

end Act

end BatchRun
