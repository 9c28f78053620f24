/-
# The clock of a run

The service reads the unix time in many places, always as one call of its own.  When the clock
does not go back, the readings of a run are in order, and so are those of one task.
-/
import KaimanWebhooks.Ledger

/-! ## Calls of a run -/

section Calls

variable {C : Type} {R : C → Type} {α J S : Type}

/-- The calls of a run, newest first. -/
def TaskSystem.calls (s : TaskSystem C R α J S) : List (CallProgram.Done C R) :=
  s.history.map Entry.done

/-- The call a task is about to make. -/
def TaskSystem.nextCall (s : TaskSystem C R α J S) (n : ℕ) : Option C :=
  (s.tasks[n]?).bind fun t =>
    match t.rest with
    | .call c _ => some c
    | _ => none

theorem TaskSystem.nextCall_eq {s : TaskSystem C R α J S} {n : ℕ} {t : TaskState C R α J} {c : C}
    {k : R c → CallProgram C R α} (ht : s.tasks[n]? = some t) (hr : t.rest = .call c k) :
    s.nextCall n = some c := by
  rw [nextCall, ht, Option.bind_some, hr]

end Calls

/-! ## Readings -/

/-- The unix time a call read. -/
def reading : DoneCall → Option ℤ
  | ⟨.systemNow, secs⟩ => some (Prog.asI64 secs)
  | _ => none

/-- The clock readings among some calls. -/
def readings (calls : List DoneCall) : List ℤ := calls.filterMap reading

/-- **A clock that does not go back**: no reading is below an earlier one. -/
def SteadyClock (s : ServiceState) : ServiceEvent → Prop
  | .spawn _ => True
  | .advance n i =>
      s.nextCall n = some .systemNow → ∀ past ∈ readings s.calls, past ≤ Prog.asI64 i.unixSeconds

instance (s : ServiceState) (e : ServiceEvent) : Decidable (SteadyClock s e) :=
  match e with
  | .spawn _ | .advance _ _ => by unfold SteadyClock; infer_instance

namespace AppState

/-- The task and the input of a statement of the history that succeeded. -/
theorem exists_executed_of_madeIn {state : AppState} {ok : ServiceState → ServiceEvent → Prop}
    {s s₀ s₁ : ServiceState} {e : ServiceEntry} {newer : List ServiceEntry}
    (hmade : TaskMachine.MadeIn state.machine ok s₀ s e s₁ newer) {q : Query} {a : q.Answer}
    (hdone : e.done = (⟨.sql q, .ok a⟩ : DoneCall)) :
    ∃ i t, ok s₁ (.advance e.task i) ∧ s₁.tasks[e.task]? = some t ∧
      (t.job = e.job ∧ ∃ k, t.rest = .call (.sql q) k) ∧ s₁.nextCall e.task = some (.sql q) ∧
      i.fault = none ∧ (q.execute i.choice e.before.table).1 = a := by
  obtain ⟨i, t, k, hok, ht, hjob, hrest, hperform⟩ := hmade.event
  rcases e with ⟨n, job, c, answer, before, after⟩
  simp only [Entry.done, Sigma.mk.injEq] at hdone
  obtain ⟨rfl, hanswer⟩ := hdone
  obtain rfl := eq_of_heq hanswer
  have hanswer : (perform state.db.ext (.sql q) i before).1 = .ok a := congrArg Prod.fst hperform
  obtain ⟨hfault, hexecuted, -⟩ := perform_sql_ok hanswer
  exact ⟨i, t, hok, ht, ⟨hjob, k, hrest⟩, TaskSystem.nextCall_eq ht hrest, hfault, hexecuted⟩

section Clock

variable {state : AppState} {ok : ServiceState → ServiceEvent → Prop} {s : ServiceState}
  (hok : ∀ s e, ok s e → SteadyClock s e) (h : state.machine.Reaches ok state.initial s)

include hok h

/-- **The readings of a run are in order**, newest first. -/
theorem readings_pairwise : (readings s.calls).Pairwise (· ≥ ·) := by
  refine h.invariant (fun s => (readings s.calls).Pairwise (· ≥ ·)) ?_ (fun s j hs _ _ => hs) ?_
  · exact List.Pairwise.nil
  · intro s n i t c k hs hstep ht hr
    have hsteady := hok s _ hstep
    unfold SteadyClock at hsteady
    show (readings ((⟨c, (perform state.db.ext c i s.shared).1⟩ : DoneCall) :: s.calls)).Pairwise
      (· ≥ ·)
    rw [readings, List.filterMap_cons]
    cases c with
    | systemNow =>
        exact List.Pairwise.cons (fun past hpast =>
          hsteady (TaskSystem.nextCall_eq ht hr) past hpast) hs
    | _ => exact hs

/-- The readings of one task are in order. -/
theorem readings_task_pairwise (n : ℕ) :
    (readings ((s.history.filter fun e => e.task = n).map Entry.done)).Pairwise (· ≥ ·) :=
  (readings_pairwise hok h).sublist ((List.filter_sublist.map Entry.done).filterMap reading)

end Clock

end AppState
