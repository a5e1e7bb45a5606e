import Breadboard.Console.Run

/-!
# Jobs on files in a state

What a job comes to when the files are a state that its disk reads and changes: whether it failed,
what it printed, and the files afterwards.

* `outcome_bind`: one job after the other.
* `Yields`: a job ends with a value of some kind, or it fails before anything is simulated.
* `Plain`: what a job does to the files, and what it prints, does not depend on what was printed
  before.
-/
namespace Breadboard.Console

/-- Whether a simulation was begun and not finished. -/
def Failure.isUnrest : Failure → Bool
  | unrest _ _ _ => true
  | _ => false

namespace Job

variable {σ α β : Type}

/-- What comes of a job, given what has been printed so far and the files. -/
def outcome (j : Job (StateM σ) α) (o : Output) (w : σ) : (Except Failure α × Output) × σ :=
  (StateT.run (ExceptT.run j) o).run w

@[simp]
theorem outcome_pure (a : α) (o : Output) (w : σ) :
    outcome (pure a : Job (StateM σ) α) o w = ((.ok a, o), w) := rfl

@[simp]
theorem outcome_throw (e : Failure) (o : Output) (w : σ) :
    outcome (throw e : Job (StateM σ) α) o w = ((.error e, o), w) := rfl

@[simp]
theorem outcome_lift (action : StateM σ α) (o : Output) (w : σ) :
    outcome (liftM action : Job (StateM σ) α) o w = ((.ok (action.run w).1, o), (action.run w).2) :=
  rfl

@[simp]
theorem outcome_tell (ns : List Notice) (o : Output) (w : σ) :
    outcome (tell ns) o w = ((.ok (), { o with notices := o.notices ++ ns }), w) := rfl

@[simp]
theorem outcome_print (text : String) (o : Output) (w : σ) :
    outcome (print text) o w = ((.ok (), { o with out := o.out ++ text }), w) := rfl

/-- One job after the other. The second one is not begun if the first one fails. -/
theorem outcome_bind (j : Job (StateM σ) α) (f : α → Job (StateM σ) β) (o : Output) (w : σ) :
    outcome (j >>= f) o w =
      match outcome j o w with
      | ((.ok a, o), w) => outcome (f a) o w
      | ((.error e, o), w) => ((.error e, o), w) := by
  simp only [outcome, ExceptT.run_bind, StateT.run_bind]
  rcases (StateT.run (ExceptT.run j) o).run w with ⟨⟨_ | a, o'⟩, w'⟩ <;> rfl

/-! ## What a job ends with -/

/-- Whatever the files are, the job ends with a value for which `Q` holds, or fails before anything
is simulated. -/
def Yields (Q : α → Prop) (j : Job (StateM σ) α) : Prop :=
  ∀ o w, match (j.outcome o w).1.1 with
    | .ok a => Q a
    | .error e => e.isUnrest = false

namespace Yields

variable {Q : α → Prop} {R : β → Prop} {j : Job (StateM σ) α} {f : α → Job (StateM σ) β}

protected theorem pure {a : α} (h : Q a) : Yields Q (pure a : Job (StateM σ) α) := fun _ _ => h

protected theorem throw {e : Failure} (h : e.isUnrest = false) :
    Yields Q (throw e : Job (StateM σ) α) := fun _ _ => h

theorem lift (action : StateM σ α) : Yields (fun _ => True) (liftM action : Job (StateM σ) α) :=
  fun _ _ => trivial

theorem tell (ns : List Notice) : Yields (σ := σ) (fun _ => True) (tell ns) := fun _ _ => trivial

theorem print (text : String) : Yields (σ := σ) (fun _ => True) (print text) :=
  fun _ _ => trivial

theorem printError (text : String) : Yields (σ := σ) (fun _ => True) (printError text) :=
  fun _ _ => trivial

protected theorem bind (hj : Yields Q j) (hf : ∀ a, Q a → Yields R (f a)) :
    Yields R (j >>= f) := by
  intro o w
  have hend := hj o w
  rw [outcome_bind]
  rcases hout : outcome j o w with ⟨⟨e | a, o'⟩, w'⟩ <;> rw [hout] at hend
  · exact hend
  · exact hf a hend o' w'

/-- What every step of a fold keeps holds at its end. -/
protected theorem foldlM {step : β → α → Job (StateM σ) β} {R : β → Prop}
    (hstep : ∀ b a, R b → Yields R (step b a)) {b : β} (hb : R b) (as : List α) :
    Yields R (as.foldlM step b) := by
  induction as generalizing b with
  | nil => exact .pure hb
  | cons a as ih =>
    rw [List.foldlM_cons]
    exact (hstep b a hb).bind fun b' hb' => ih hb'

protected theorem ask {failure : FileError → Failure} (action : StateM σ (Except FileError α))
    (h : ∀ e, (failure e).isUnrest = false) : Yields (fun _ => True) (ask failure action) := by
  refine (lift action).bind fun answer _ => ?_
  cases answer with
  | ok value => exact .pure trivial
  | error e => exact .throw (h e)

protected theorem save (disk : Disk (StateM σ)) (path text : String) :
    Yields (fun _ => True) (save disk path text) :=
  (Yields.ask _ fun _ => rfl).bind fun file _ => lift (disk.write file text)

end Yields

/-! ## What a job does to the files -/

/-- What the job does to the files and what it prints are matters of the files alone. -/
def Plain (j : Job (StateM σ) α) : Prop :=
  ∀ w, ∃ r text w', ∀ o, j.outcome o w = ((r, { o with out := o.out ++ text }), w')

namespace Plain

variable {j : Job (StateM σ) α} {f : α → Job (StateM σ) β}

protected theorem pure (a : α) : Plain (pure a : Job (StateM σ) α) :=
  fun w => ⟨.ok a, "", w, fun o => by simp⟩

protected theorem throw (e : Failure) : Plain (throw e : Job (StateM σ) α) :=
  fun w => ⟨.error e, "", w, fun o => by simp⟩

theorem lift (action : StateM σ α) : Plain (liftM action : Job (StateM σ) α) :=
  fun w => ⟨.ok (action.run w).1, "", (action.run w).2, fun o => by simp⟩

theorem print (text : String) : Plain (σ := σ) (print text) :=
  fun w => ⟨.ok (), text, w, fun o => by simp⟩

protected theorem bind (hj : Plain j) (hf : ∀ a, Plain (f a)) : Plain (j >>= f) := by
  intro w
  obtain ⟨r, text, w', h⟩ := hj w
  cases r with
  | error e => exact ⟨.error e, text, w', fun o => by rw [outcome_bind, h]⟩
  | ok a =>
    obtain ⟨r', text', w'', h'⟩ := hf a w'
    refine ⟨r', text ++ text', w'', fun o => ?_⟩
    rw [outcome_bind, h]
    simp only [h', String.append_assoc]

protected theorem ask (failure : FileError → Failure) (action : StateM σ (Except FileError α)) :
    Plain (ask failure action) := by
  refine (lift action).bind fun answer => ?_
  cases answer with
  | ok value => exact .pure value
  | error e => exact .throw (failure e)

protected theorem save (disk : Disk (StateM σ)) (path text : String) :
    Plain (save disk path text) :=
  (Plain.ask _ _).bind fun file => lift (disk.write file text)

end Plain

end Job

end Breadboard.Console
