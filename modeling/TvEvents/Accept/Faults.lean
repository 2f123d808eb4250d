import TvEvents.Accept.RequiredParams
import TvEvents.Accept.Timestamps

namespace TvEvents

def ClientFault (e : PyExc) : Prop :=
  ∃ kind message, e = .tvEvents kind message ∧ kind.statusCode = 400

/-- A fault of the payload: a name is missing or a value is refused. -/
def PayloadFault (e : PyExc) : Prop :=
  ∃ message, e = .tvEvents .missingRequiredParam message ∨ e = .tvEvents .invalidPayload message

theorem PayloadFault.client {e : PyExc} (h : PayloadFault e) : ClientFault e := by
  obtain ⟨message, rfl | rfl⟩ := h
  · exact ⟨_, _, rfl, rfl⟩
  · exact ⟨_, _, rfl, rfl⟩

theorem not_clientFault_builtin (b : Builtin) : ¬ClientFault (.builtin b) := by
  intro h
  obtain ⟨kind, message, herror, -⟩ := h
  cases herror

theorem requireAll_fails_iff (v : Json) (param : String) (params : List String) :
    (requireAll v (param :: params)).FailsOnly ClientFault ↔ Searchable v := by
  by_cases hv : Searchable v
  · refine iff_of_true ?_ hv
    intro e he
    by_cases hall : HoldsAll v (param :: params)
    · rw [(requireAll_iff _ _).mpr hall] at he
      cases he
    · obtain ⟨message, hmessage⟩ := requireAll_missing hv hall
      rw [hmessage] at he
      exact ⟨_, _, (Except.error.inj he).symm, rfl⟩
  · refine iff_of_false ?_ hv
    rw [requireAll_unsearchable hv, Except.failsOnly_error]
    exact not_clientFault_builtin _

variable [Runtime]

/-- Every failure of a timestamp check is reported as one of the payload. -/
theorem timestampCheck_fails (ts : Json) (tvid : String) (isMs : Bool) :
    (timestampCheck ts tvid isMs).FailsOnly PayloadFault := by
  have hpayload : ∀ text e, PayloadFault (timestampError tvid text e) :=
    fun text e => ⟨_, .inr rfl⟩
  intro e he
  unfold timestampCheck at he
  cases hn : toInt ts with
  | error e' =>
    rw [hn] at he
    rw [← Except.error.inj he]
    exact hpayload _ _
  | ok n =>
    rw [hn] at he
    simp only at he
    split at he
    · rw [← Except.error.inj he]
      exact hpayload _ _
    · cases he

end TvEvents
