import PagedHeap.Action

/-!
# What an action ensures

`action.Ensures s ok refused` says that from the state `s` the action does not stop with a trap,
that `ok` holds of its answer and the state after it, and that `refused` holds of the cause and the
state if it is refused.  What a refused action leaves behind is as much part of its meaning as its
answer, so both postconditions speak of the state.

There is one rule for each way to build an action, and each is an equivalence or an equation: no
fact is lost on the way from an operation to its parts.
-/

namespace PagedHeap

/-! ## Results -/

namespace Result

variable {α β : Type}

@[simp] theorem bind_ok (a : α) (f : α → Result β) : ((.ok a : Result α) >>= f) = f a := rfl

@[simp] theorem bind_error (e : Failure) (f : α → Result β) :
    ((.error e : Result α) >>= f) = .error e := rfl

/-- Two steps have a result if the first has one from which the second has it. -/
theorem bind_eq_ok {x : Result α} {f : α → Result β} {b : β} :
    x >>= f = .ok b ↔ ∃ a, x = .ok a ∧ f a = .ok b := by
  cases x <;> simp

/-- What a check guards is answered exactly if the check is passed. -/
theorem ite_refuse_eq_ok {p : Prop} [Decidable p] {e : StorageError} {x : Result α} {a : α} :
    (if p then refuse e else x) = .ok a ↔ ¬p ∧ x = .ok a := by
  by_cases h : p
  · simp [h, refuse]
  · simp [h]

end Result

/-! ## Actions -/

namespace Action

variable {σ τ α β : Type}

/-- From `s` the action has an answer for which `ok` holds, or a refusal for which `refused` holds;
it does not stop. -/
def Ensures (action : Action σ α) (s : σ) (ok : α → σ → Prop)
    (refused : StorageError → σ → Prop) : Prop :=
  match action s with
  | .ok a s' => ok a s'
  | .error (.error e) s' => refused e s'
  | .error (.trap _) _ => False

/-- From `s` the action comes to an end in `s'`, with an answer or refused. -/
def Ends (action : Action σ α) (s s' : σ) : Prop :=
  (∃ a, action s = .ok a s') ∨ ∃ e, action s = .error (.error e) s'

/-- No action is refused here. -/
abbrev Never : StorageError → σ → Prop := fun _ _ => False

namespace Ensures

variable {action : Action σ α} {s : σ} {ok ok' : α → σ → Prop}
variable {refused refused' : StorageError → σ → Prop}

/-- Both postconditions can be weakened. -/
theorem mono (h : action.Ensures s ok refused) (hok : ∀ a s', ok a s' → ok' a s')
    (hrefused : ∀ e s', refused e s' → refused' e s') : action.Ensures s ok' refused' := by
  unfold Ensures at h ⊢
  cases hres : action s with
  | ok a s' =>
    rw [hres] at h
    exact hok a s' h
  | error f s' =>
    rw [hres] at h
    cases f with
    | error e => exact hrefused e s' h
    | trap t => exact h

/-- Two facts about the same action hold together. -/
theorem and (h : action.Ensures s ok refused) (h' : action.Ensures s ok' refused') :
    action.Ensures s (fun a s' => ok a s' ∧ ok' a s')
      (fun e s' => refused e s' ∧ refused' e s') := by
  unfold Ensures at h h' ⊢
  cases hres : action s with
  | ok a s' =>
    rw [hres] at h h'
    exact ⟨h, h'⟩
  | error f s' =>
    rw [hres] at h h'
    cases f with
    | error e => exact ⟨h, h'⟩
    | trap t => exact h

/-- What is ensured holds of the answer. -/
theorem of_ok (h : action.Ensures s ok refused) {a : α} {s' : σ} (hres : action s = .ok a s') :
    ok a s' := by
  unfold Ensures at h
  rwa [hres] at h

/-- What is ensured holds of the refusal. -/
theorem of_error (h : action.Ensures s ok refused) {e : StorageError} {s' : σ}
    (hres : action s = .error (.error e) s') : refused e s' := by
  unfold Ensures at h
  rwa [hres] at h

/-- The postconditions may mention the run itself. -/
theorem and_run (h : action.Ensures s ok refused) :
    action.Ensures s (fun a s' => ok a s' ∧ action s = .ok a s')
      (fun e s' => refused e s' ∧ action s = .error (.error e) s') := by
  unfold Ensures at h ⊢
  cases hres : action s with
  | ok a s' =>
    rw [hres] at h
    exact ⟨h, rfl⟩
  | error f s' =>
    rw [hres] at h
    cases f with
    | error e => exact ⟨h, rfl⟩
    | trap t => exact h

/-- An action that runs like another one ensures the same. -/
theorem of_run_eq {action' : Action σ α} (h : action.Ensures s ok refused)
    (hrun : action' s = action s) : action'.Ensures s ok refused := by
  unfold Ensures at h ⊢
  rwa [hrun]

/-- An action that is known to answer does so. -/
theorem run_eq {a : α} {t : σ} (h : action.Ensures s (fun b s' => b = a ∧ s' = t) Never) :
    action s = .ok a t := by
  unfold Ensures at h
  cases hres : action s with
  | ok b s' =>
    rw [hres] at h
    rw [h.1, h.2]
  | error f s' =>
    rw [hres] at h
    cases f with
    | error e => exact h.elim
    | trap t => exact h.elim

/-- An action that is known to be refused for one cause in one state is refused so. -/
theorem run_refused {e : StorageError} {t : σ}
    (h : action.Ensures s (fun _ _ => False) fun e' s' => e' = e ∧ s' = t) :
    action s = .error (.error e) t := by
  unfold Ensures at h
  cases hres : action s with
  | ok a s' =>
    rw [hres] at h
    exact h.elim
  | error f s' =>
    rw [hres] at h
    cases f with
    | error e' =>
      obtain ⟨rfl, rfl⟩ := h
      rfl
    | trap c => exact h.elim

/-- What holds of the answer is ensured. -/
theorem of_run {a : α} {s' : σ} (hres : action s = .ok a s') (h : ok a s') :
    action.Ensures s ok refused := by
  unfold Ensures
  rwa [hres]

/-- An action that is not refused answers. -/
theorem exists_ok (h : action.Ensures s ok Never) : ∃ a s', action s = .ok a s' ∧ ok a s' := by
  unfold Ensures at h
  cases hres : action s with
  | ok a s' =>
    rw [hres] at h
    exact ⟨a, s', rfl, h⟩
  | error f s' =>
    rw [hres] at h
    cases f with
    | error e => exact h.elim
    | trap t => exact h.elim

/-- An action that does not answer is refused. -/
theorem exists_refusal (h : action.Ensures s (fun _ _ => False) refused) :
    ∃ e s', action s = .error (.error e) s' ∧ refused e s' := by
  unfold Ensures at h
  cases hres : action s with
  | ok a s' =>
    rw [hres] at h
    exact h.elim
  | error f s' =>
    rw [hres] at h
    cases f with
    | error e => exact ⟨e, s', rfl, h⟩
    | trap t => exact h.elim

/-- What is ensured in either case holds at the end. -/
theorem of_ends {post : σ → Prop} (h : action.Ensures s (fun _ => post) fun _ => post) {s' : σ}
    (hends : action.Ends s s') : post s' := by
  rcases hends with ⟨a, hres⟩ | ⟨e, hres⟩
  · exact h.of_ok hres
  · exact h.of_error hres

/-- An action that ensures anything does not stop. -/
theorem not_trap (h : action.Ensures s ok refused) {t : Trap} {s' : σ} :
    action s ≠ .error (.trap t) s' := by
  intro hres
  unfold Ensures at h
  rw [hres] at h
  exact h

end Ensures

section Rules

variable {s : σ} {refused : StorageError → σ → Prop}

theorem ensures_pure {a : α} {ok : α → σ → Prop} :
    (pure a : Action σ α).Ensures s ok refused ↔ ok a s := Iff.rfl

theorem ensures_get {ok : σ → σ → Prop} :
    (get : Action σ σ).Ensures s ok refused ↔ ok s s := Iff.rfl

theorem ensures_set {t : σ} {ok : PUnit → σ → Prop} :
    (set t : Action σ PUnit).Ensures s ok refused ↔ ok ⟨⟩ t := Iff.rfl

theorem ensures_modify {f : σ → σ} {ok : PUnit → σ → Prop} :
    (modify f : Action σ PUnit).Ensures s ok refused ↔ ok ⟨⟩ (f s) := Iff.rfl

theorem ensures_refuse {e : StorageError} {ok : α → σ → Prop} :
    (refuse e : Action σ α).Ensures s ok refused ↔ refused e s := Iff.rfl

theorem ensures_bind {x : Action σ α} {f : α → Action σ β} {ok : β → σ → Prop} :
    (x >>= f).Ensures s ok refused ↔
      x.Ensures s (fun a s' => (f a).Ensures s' ok refused) refused := by
  have run : (x >>= f) s = EStateM.bind x f s := rfl
  unfold Ensures
  rw [run, EStateM.bind]
  cases x s with
  | ok a s' => rfl
  | error e s' => cases e <;> rfl

/-- The result of a computation without state is used as it is. -/
theorem ensures_ofResult_ok {r : Result α} {a : α} (hr : r = .ok a) {ok : α → σ → Prop} :
    (ofResult r).Ensures s ok refused ↔ ok a s := by rw [hr]; rfl

theorem ensures_ofResult_refuse {r : Result α} {e : StorageError} (hr : r = .error (.error e))
    {ok : α → σ → Prop} : (ofResult r).Ensures s ok refused ↔ refused e s := by rw [hr]; rfl

theorem ensures_attempt {x : Action σ α} {ok : Except StorageError α → σ → Prop} :
    (attempt x).Ensures s ok refused ↔
      x.Ensures s (fun a s' => ok (.ok a) s') (fun e s' => ok (.error e) s') := by
  unfold Ensures attempt
  cases x s with
  | ok a s' => rfl
  | error e s' => cases e <;> rfl

theorem ensures_quietly {x : Action σ Unit} {ok : Unit → σ → Prop} :
    (quietly x).Ensures s ok refused ↔
      x.Ensures s (fun _ s' => ok () s') (fun _ s' => ok () s') := by
  unfold quietly
  rw [ensures_bind, ensures_attempt]
  rfl

theorem ensures_orClean {x : Action σ α} {clean : Action σ Unit} {ok : α → σ → Prop} :
    (orClean x clean).Ensures s ok refused ↔
      x.Ensures s ok (fun e s' =>
        clean.Ensures s' (fun _ s'' => refused e s'') (fun _ s'' => refused e s'')) := by
  have cleanUp (e : StorageError) (s' : σ) :
      (do quietly clean; refuse e : Action σ α).Ensures s' ok refused ↔
        clean.Ensures s' (fun _ s'' => refused e s'') (fun _ s'' => refused e s'') := by
    rw [ensures_bind, ensures_quietly]
    rfl
  unfold orClean
  rw [ensures_bind, ensures_attempt]
  constructor
  · exact fun h => h.mono (fun _ _ ha => ha) (fun e s' he => (cleanUp e s').1 he)
  · exact fun h => h.mono (fun _ _ ha => ha) (fun e s' he => (cleanUp e s').2 he)

theorem ensures_thenAlways {first second : Action σ Unit} {ok : Unit → σ → Prop} :
    (thenAlways first second).Ensures s ok refused ↔
      first.Ensures s (fun _ s' => second.Ensures s' ok refused) (fun e s' =>
        second.Ensures s' (fun _ s'' => refused e s'') (fun _ s'' => refused e s'')) := by
  have cleanUp (e : StorageError) (s' : σ) :
      (do quietly second; refuse e : Action σ Unit).Ensures s' ok refused ↔
        second.Ensures s' (fun _ s'' => refused e s'') (fun _ s'' => refused e s'') := by
    rw [ensures_bind, ensures_quietly]
    rfl
  unfold thenAlways
  rw [ensures_bind, ensures_attempt]
  constructor
  · exact fun h => h.mono (fun _ _ ha => ha) (fun e s' he => (cleanUp e s').1 he)
  · exact fun h => h.mono (fun _ _ ha => ha) (fun e s' he => (cleanUp e s').2 he)

theorem ensures_onPart {get : σ → τ} {set : τ → σ → σ} {x : Action τ α} {ok : α → σ → Prop} :
    (onPart get set x).Ensures s ok refused ↔
      x.Ensures (get s) (fun a t => ok a (set t s)) (fun e t => refused e (set t s)) := by
  unfold Ensures onPart
  cases x (get s) with
  | ok a t => rfl
  | error e t => cases e <;> rfl

/-- An action that is repeated for every element of a list keeps what each of the steps keeps. -/
theorem ensures_forM {f : α → Action σ PUnit} (keep : σ → Prop) {xs : List α}
    (step : ∀ a ∈ xs, ∀ t, keep t → (f a).Ensures t (fun _ => keep) (fun e => refused e))
    (hs : keep s) : (xs.forM f).Ensures s (fun _ => keep) refused := by
  induction xs generalizing s with
  | nil => exact hs
  | cons a xs ih =>
    change (f a >>= fun _ => xs.forM f).Ensures s _ _
    rw [ensures_bind]
    refine (step a (by simp) s hs).mono (fun _ t ht => ?_) (fun _ _ h => h)
    exact ih (fun b hb => step b (by simp [hb])) ht

/-- If what a step achieves for its element lasts through the steps for others, then it is achieved
for all elements in the end. -/
theorem ensures_forM_each {f : α → Action σ PUnit} (keep : σ → Prop) (achieved : α → σ → Prop)
    {xs : List α}
    (step : ∀ a ∈ xs, ∀ t, keep t → (f a).Ensures t
      (fun _ t' => keep t' ∧ achieved a t' ∧ ∀ b, achieved b t → achieved b t')
      (fun e => refused e)) (hs : keep s) :
    (xs.forM f).Ensures s (fun _ s' => (keep s' ∧ ∀ a ∈ xs, achieved a s') ∧
      ∀ b, achieved b s → achieved b s') refused := by
  induction xs generalizing s with
  | nil => exact ⟨⟨hs, nofun⟩, fun _ => id⟩
  | cons a xs ih =>
    change (f a >>= fun _ => xs.forM f).Ensures s _ _
    rw [ensures_bind]
    refine (step a (by simp) s hs).mono (fun _ t ht => ?_) (fun _ _ h => h)
    obtain ⟨hkeep, hdone, hlasts⟩ := ht
    refine (ih (fun b hb => step b (by simp [hb])) hkeep).mono (fun _ s' hpost => ?_)
      fun _ _ h => h
    obtain ⟨⟨hkeep', hall⟩, hlasts'⟩ := hpost
    refine ⟨⟨hkeep', fun b hb => ?_⟩, fun b hb => hlasts' b (hlasts b hb)⟩
    rcases List.mem_cons.1 hb with rfl | hb
    · exact hlasts' b hdone
    · exact hall b hb

end Rules

/-! ## Runs -/

theorem bind_run_ok {s s' : σ} {x : Action σ α} {a : α} (hx : x s = .ok a s')
    (f : α → Action σ β) : (x >>= f) s = f a s' := by
  have run : (x >>= f) s = EStateM.bind x f s := rfl
  rw [run, EStateM.bind, hx]

theorem bind_run_error {s s' : σ} {x : Action σ α} {e : Failure} (hx : x s = .error e s')
    (f : α → Action σ β) : (x >>= f) s = .error e s' := by
  have run : (x >>= f) s = EStateM.bind x f s := rfl
  rw [run, EStateM.bind, hx]

/-- What is answered needs no cleaning up. -/
theorem orClean_run_ok {s s' : σ} {x : Action σ α} {a : α} (hx : x s = .ok a s')
    (clean : Action σ Unit) : orClean x clean s = .ok a s' := by
  have hattempt : attempt x s = .ok (.ok a) s' := by
    unfold attempt
    rw [hx]
  exact bind_run_ok hattempt _

theorem onPart_run_ok {get : σ → τ} {set : τ → σ → σ} {x : Action τ α} {s : σ} {a : α} {t : τ}
    (hx : x (get s) = .ok a t) : onPart get set x s = .ok a (set t s) := by
  unfold onPart
  rw [hx]

theorem onPart_run_error {get : σ → τ} {set : τ → σ → σ} {x : Action τ α} {s : σ} {e : Failure}
    {t : τ} (hx : x (get s) = .error e t) : onPart get set x s = .error e (set t s) := by
  unfold onPart
  rw [hx]

/-- An action on a part that answers has answered there. -/
theorem exists_of_onPart_ok {get : σ → τ} {set : τ → σ → σ} {x : Action τ α} {s s' : σ} {a : α}
    (h : onPart get set x s = .ok a s') : ∃ t, x (get s) = .ok a t ∧ s' = set t s := by
  cases hx : x (get s) with
  | ok b t =>
    rw [onPart_run_ok hx] at h
    cases h
    exact ⟨t, rfl, rfl⟩
  | error e t =>
    rw [onPart_run_error hx] at h
    cases h

/-- Two steps that answer have both answered. -/
theorem exists_of_bind_ok {s t : σ} {x : Action σ α} {f : α → Action σ β} {b : β}
    (h : (x >>= f) s = .ok b t) : ∃ a s', x s = .ok a s' ∧ f a s' = .ok b t := by
  cases hx : x s with
  | ok a s' =>
    rw [bind_run_ok hx] at h
    exact ⟨a, s', rfl, h⟩
  | error e s' =>
    rw [bind_run_error hx] at h
    cases h

/-- If both actions are run and there is no refusal, the second one has answered. -/
theorem exists_of_thenAlways_ok {s t : σ} {first second : Action σ Unit}
    (h : thenAlways first second s = .ok () t) : ∃ s', second s' = .ok () t := by
  obtain ⟨answer, s', -, hsecond⟩ := exists_of_bind_ok h
  cases answer with
  | ok _ => exact ⟨s', hsecond⟩
  | error e =>
    obtain ⟨_, _, -, hrefused⟩ := exists_of_bind_ok hsecond
    cases hrefused

/-! ## Actions that fail -/

/-- From `s` the action has no answer, and leaves `t` behind. -/
def Fails (action : Action σ α) (s t : σ) : Prop := ∃ e, action s = .error e t

section Fails

variable {s s' t : σ} {x : Action σ α} {f : α → Action σ β}

theorem fails_throw (e : Failure) (s : σ) : (throw e : Action σ α).Fails s s := ⟨e, rfl⟩

theorem fails_ofResult (e : Failure) (s : σ) : (ofResult (.error e) : Action σ α).Fails s s :=
  ⟨e, rfl⟩

theorem Fails.bind (h : x.Fails s t) : (x >>= f).Fails s t := by
  obtain ⟨e, he⟩ := h
  exact ⟨e, bind_run_error he f⟩

theorem Fails.of_ok {a : α} (hx : x s = .ok a s') (h : (f a).Fails s' t) : (x >>= f).Fails s t := by
  obtain ⟨e, he⟩ := h
  exact ⟨e, (bind_run_ok hx f).trans he⟩

theorem Fails.onPart {get : σ → τ} {set : τ → σ → σ} {y : Action τ α} {u : τ}
    (h : y.Fails (get s) u) : (onPart get set y).Fails s (set u s) := by
  obtain ⟨e, he⟩ := h
  refine ⟨e, ?_⟩
  unfold Action.onPart
  rw [he]

end Fails

end Action

end PagedHeap
