import PagedHeap.Proofs.Ensures

/-!
# What an action allows

`action.Allows s ok refused` says that from the state `s` the action has no answer but those for
which `ok` holds, and no refusal but those for which `refused` holds.  Unlike `Action.Ensures` it
does not say that the action comes to an end: one that stops with a trap allows nothing that could
be seen afterwards, so that what is said about the others needs no word about counters and broken
links.

An action keeps an invariant (`Action.Preserves`) if from every state for which it holds nothing
else is allowed, whether the action is answered or refused, and if it is refused only for certain
causes.  There is one rule for each way to build an action.
-/

namespace PagedHeap

namespace Action

variable {σ τ α β : Type}

/-- From `s` the action has only answers for which `ok` holds and refusals for which `refused`
holds. -/
def Allows (action : Action σ α) (s : σ) (ok : α → σ → Prop)
    (refused : StorageError → σ → Prop) : Prop :=
  match action s with
  | .ok a s' => ok a s'
  | .error (.error e) s' => refused e s'
  | .error (.trap _) _ => True

namespace Allows

variable {action : Action σ α} {s : σ} {ok ok' : α → σ → Prop}
variable {refused refused' : StorageError → σ → Prop}

/-- Both postconditions can be weakened. -/
theorem mono (h : action.Allows s ok refused) (hok : ∀ a s', ok a s' → ok' a s')
    (hrefused : ∀ e s', refused e s' → refused' e s') : action.Allows s ok' refused' := by
  unfold Allows at h ⊢
  cases hres : action s with
  | ok a s' =>
    rw [hres] at h
    exact hok a s' h
  | error f s' =>
    rw [hres] at h
    cases f with
    | error e => exact hrefused e s' h
    | trap t => trivial

/-- More causes can be allowed. -/
theorem because {cause cause' : StorageError → Prop} {keep : σ → Prop}
    (h : action.Allows s ok fun e s' => cause e ∧ keep s') (hcause : ∀ e, cause e → cause' e) :
    action.Allows s ok fun e s' => cause' e ∧ keep s' :=
  h.mono (fun _ _ hpost => hpost) fun e _ hpost => ⟨hcause e hpost.1, hpost.2⟩

/-- What is allowed holds of the answer. -/
theorem of_ok (h : action.Allows s ok refused) {a : α} {s' : σ} (hres : action s = .ok a s') :
    ok a s' := by
  unfold Allows at h
  rwa [hres] at h

/-- What is allowed holds of the refusal. -/
theorem of_error (h : action.Allows s ok refused) {e : StorageError} {s' : σ}
    (hres : action s = .error (.error e) s') : refused e s' := by
  unfold Allows at h
  rwa [hres] at h

/-- What is known of every answer and every refusal is all that is allowed. -/
theorem of_cases (hok : ∀ a s', action s = .ok a s' → ok a s')
    (hrefused : ∀ e s', action s = .error (.error e) s' → refused e s') :
    action.Allows s ok refused := by
  unfold Allows
  cases hres : action s with
  | ok a s' => exact hok a s' hres
  | error f s' =>
    cases f with
    | error e => exact hrefused e s' hres
    | trap t => trivial

/-- What an action ensures is all that it allows. -/
theorem of_ensures (h : action.Ensures s ok refused) : action.Allows s ok refused :=
  .of_cases (fun _ _ => h.of_ok) fun _ _ => h.of_error

/-- Of every action nothing can be said as well. -/
theorem trivial (action : Action σ α) (s : σ) :
    action.Allows s (fun _ _ => True) fun _ _ => True :=
  .of_cases (fun _ _ _ => True.intro) fun _ _ _ => True.intro

end Allows

section Rules

variable {s : σ} {refused : StorageError → σ → Prop}

theorem allows_pure {a : α} {ok : α → σ → Prop} (h : ok a s) :
    (pure a : Action σ α).Allows s ok refused := h

theorem allows_modify {f : σ → σ} {ok : PUnit → σ → Prop} (h : ok ⟨⟩ (f s)) :
    (modify f : Action σ PUnit).Allows s ok refused := h

theorem allows_set {t : σ} {ok : PUnit → σ → Prop} (h : ok ⟨⟩ t) :
    (set t : Action σ PUnit).Allows s ok refused := h

theorem allows_refuse {e : StorageError} {ok : α → σ → Prop} (h : refused e s) :
    (refuse e : Action σ α).Allows s ok refused := h

theorem allows_stop {c : Trap} {ok : α → σ → Prop} :
    (stop c : Action σ α).Allows s ok refused := trivial

theorem allows_ofResult {r : Result α} {ok : α → σ → Prop} (hok : ∀ a, r = .ok a → ok a s)
    (hrefused : ∀ e, r = .error (.error e) → refused e s) :
    (ofResult r).Allows s ok refused := by
  cases r with
  | ok a => exact hok a rfl
  | error f =>
    cases f with
    | error e => exact hrefused e rfl
    | trap c => trivial

/-- The state is read, and what follows may depend on it. -/
theorem allows_get {f : σ → Action σ α} {ok : α → σ → Prop} (h : (f s).Allows s ok refused) :
    (get >>= f).Allows s ok refused := h

/-- What follows a change of the state starts from the changed state. -/
theorem allows_modify_bind {g : σ → σ} {f : PUnit → Action σ α} {ok : α → σ → Prop}
    (h : (f ⟨⟩).Allows (g s) ok refused) : (modify g >>= f).Allows s ok refused := h

theorem allows_set_bind {t : σ} {f : PUnit → Action σ α} {ok : α → σ → Prop}
    (h : (f ⟨⟩).Allows t ok refused) : (set t >>= f).Allows s ok refused := h

/-- A computation without state leaves the state to what follows. -/
theorem allows_ofResult_bind {r : Result α} {f : α → Action σ β} {ok : β → σ → Prop}
    (hok : ∀ a, r = .ok a → (f a).Allows s ok refused)
    (hrefused : ∀ e, r = .error (.error e) → refused e s) :
    (ofResult r >>= f).Allows s ok refused := by
  cases r with
  | ok a => exact hok a rfl
  | error e =>
    cases e with
    | error e => exact hrefused e rfl
    | trap c => trivial

theorem allows_bind {x : Action σ α} {f : α → Action σ β} {p : α → σ → Prop}
    {ok : β → σ → Prop} (h : x.Allows s p refused)
    (hrest : ∀ a s', p a s' → (f a).Allows s' ok refused) :
    (x >>= f).Allows s ok refused := by
  unfold Allows at h
  cases hres : x s with
  | ok a s' =>
    rw [hres] at h
    have hnext := hrest a s' h
    unfold Allows at hnext ⊢
    rwa [bind_run_ok hres]
  | error e s' =>
    rw [hres] at h
    unfold Allows
    rw [bind_run_error hres]
    cases e with
    | error e => exact h
    | trap c => trivial

theorem allows_attempt {x : Action σ α} {ok : Except StorageError α → σ → Prop}
    (h : x.Allows s (fun a => ok (.ok a)) (fun e => ok (.error e))) :
    (attempt x).Allows s ok refused := by
  unfold Allows at h ⊢
  unfold attempt
  cases hres : x s with
  | ok a s' =>
    rw [hres] at h
    exact h
  | error f s' =>
    rw [hres] at h
    cases f with
    | error e => exact h
    | trap c => trivial

/-- What follows on an attempt may depend on whether it was refused. -/
theorem allows_attempt_bind {x : Action σ α} {f : Except StorageError α → Action σ β}
    {ok : β → σ → Prop}
    (h : x.Allows s (fun a s' => (f (.ok a)).Allows s' ok refused)
      fun e s' => (f (.error e)).Allows s' ok refused) :
    (attempt x >>= f).Allows s ok refused :=
  allows_bind (p := fun answer s' => (f answer).Allows s' ok refused) (allows_attempt h)
    fun _ _ hpost => hpost

theorem allows_quietly {x : Action σ Unit} {ok : Unit → σ → Prop}
    (h : x.Allows s ok fun _ => ok ()) : (quietly x).Allows s ok refused := by
  unfold quietly
  refine allows_bind (p := fun _ => ok ()) (allows_attempt h) fun _ _ hpost => ?_
  exact allows_pure hpost

/-- An action cleans up, and what was refused stays refused. -/
theorem allows_cleanUp {clean : Action σ Unit} {e : StorageError} {ok : α → σ → Prop}
    (h : clean.Allows s (fun _ => refused e) fun _ => refused e) :
    (do quietly clean; refuse e : Action σ α).Allows s ok refused :=
  allows_bind (allows_quietly h) fun _ _ hpost => allows_refuse hpost

theorem allows_orClean {x : Action σ α} {clean : Action σ Unit} {ok : α → σ → Prop}
    (h : x.Allows s ok fun e s' => clean.Allows s' (fun _ => refused e) fun _ => refused e) :
    (orClean x clean).Allows s ok refused := by
  unfold orClean
  exact allows_attempt_bind (h.mono (fun _ _ hpost => allows_pure hpost)
    fun _ _ hpost => allows_cleanUp hpost)

/-- Where nothing is said of refusals, cleaning up does not matter. -/
theorem Allows.orClean_of_ok {x : Action σ α} {clean : Action σ Unit} {ok : α → σ → Prop}
    (h : x.Allows s ok fun _ _ => True) : (orClean x clean).Allows s ok fun _ _ => True :=
  allows_orClean (h.mono (fun _ _ => id) fun _ _ _ => .trivial _ _)

/-- What is refused is refused for the same cause once it was cleaned up. -/
theorem Allows.orClean {x : Action σ α} {clean : Action σ Unit} {ok : α → σ → Prop}
    {cause : StorageError → Prop} {p q : σ → Prop}
    (h : x.Allows s ok fun e s' => cause e ∧ p s')
    (hclean : ∀ s', p s' → clean.Allows s' (fun _ => q) fun _ => q) :
    (orClean x clean).Allows s ok fun e s' => cause e ∧ q s' :=
  allows_orClean (h.mono (fun _ _ hpost => hpost) fun _ s' hpost =>
    (hclean s' hpost.2).mono (fun _ _ hq => ⟨hpost.1, hq⟩) fun _ _ hq => ⟨hpost.1, hq⟩)

theorem allows_thenAlways {first second : Action σ Unit} {ok : Unit → σ → Prop}
    (h : first.Allows s (fun _ s' => second.Allows s' ok refused)
      fun e s' => second.Allows s' (fun _ => refused e) fun _ => refused e) :
    (thenAlways first second).Allows s ok refused := by
  unfold thenAlways
  exact allows_attempt_bind (h.mono (fun _ _ hpost => hpost) fun _ _ hpost => allows_cleanUp hpost)

/-- Both actions are run, and the invariant goes from the one to the other whatever is refused. -/
theorem Allows.thenAlways {first second : Action σ Unit} {cause : StorageError → Prop}
    {p q : σ → Prop} (h : first.Allows s (fun _ => p) fun e s' => cause e ∧ p s')
    (hsecond : ∀ s', p s' → second.Allows s' (fun _ => q) fun e s'' => cause e ∧ q s'') :
    (thenAlways first second).Allows s (fun _ => q) fun e s' => cause e ∧ q s' :=
  allows_thenAlways (h.mono (fun _ s' hs' => hsecond s' hs') fun _ s' hpost =>
    (hsecond s' hpost.2).mono (fun _ _ hs'' => ⟨hpost.1, hs''⟩) fun _ _ hs'' => ⟨hpost.1, hs''.2⟩)

theorem allows_onPart {get : σ → τ} {set : τ → σ → σ} {x : Action τ α} {ok : α → σ → Prop}
    (h : x.Allows (get s) (fun a t => ok a (set t s)) fun e t => refused e (set t s)) :
    (onPart get set x).Allows s ok refused := by
  unfold Allows at h ⊢
  unfold onPart
  cases hres : x (get s) with
  | ok a t =>
    rw [hres] at h
    exact h
  | error f t =>
    rw [hres] at h
    cases f with
    | error e => exact h
    | trap c => trivial

end Rules

/-! ## Invariants that are kept -/

/-- From every state for which `keep` holds the action ends in such a state, and it is refused for
none but certain causes. -/
def Preserves (keep : σ → Prop) (cause : StorageError → Prop) (action : Action σ α) : Prop :=
  ∀ ⦃s⦄, keep s → action.Allows s (fun _ => keep) fun e s' => cause e ∧ keep s'

section Preserves

variable {keep : σ → Prop} {cause cause' : StorageError → Prop} {x : Action σ α}

/-- More causes can be allowed. -/
theorem Preserves.mono (h : Preserves keep cause x) (hcause : ∀ e, cause e → cause' e) :
    Preserves keep cause' x := fun _ hs => (h hs).because hcause

/-- What is kept holds of every answer. -/
theorem Preserves.of_ok (h : Preserves keep cause x) {s : σ} (hs : keep s) :
    x.Allows s (fun _ => keep) fun _ _ => True :=
  (h hs).mono (fun _ _ => id) fun _ _ _ => True.intro

theorem preserves_pure (a : α) : Preserves keep cause (pure a : Action σ α) :=
  fun _ hs => allows_pure hs

theorem preserves_stop (c : Trap) : Preserves keep cause (stop c : Action σ α) :=
  fun _ _ => allows_stop

theorem preserves_refuse {e : StorageError} (he : cause e) :
    Preserves keep cause (refuse e : Action σ α) := fun _ hs => allows_refuse ⟨he, hs⟩

theorem preserves_ofResult {r : Result α} (hr : ∀ e, r = .error (.error e) → cause e) :
    Preserves keep cause (ofResult r : Action σ α) := fun _ hs =>
  allows_ofResult (fun _ _ => hs) fun e he => ⟨hr e he, hs⟩

theorem preserves_modify {f : σ → σ} (h : ∀ s, keep s → keep (f s)) :
    Preserves keep cause (modify f : Action σ PUnit) := fun s hs => allows_modify (h s hs)

theorem preserves_bind {f : α → Action σ β} (h : Preserves keep cause x)
    (hrest : ∀ a, Preserves keep cause (f a)) : Preserves keep cause (x >>= f) :=
  fun _ hs => allows_bind (h hs) fun a _ hs' => hrest a hs'

/-- What follows may depend on the state that was read. -/
theorem preserves_get {f : σ → Action σ α}
    (h : ∀ s, keep s → (f s).Allows s (fun _ => keep) fun e s' => cause e ∧ keep s') :
    Preserves keep cause (get >>= f) := fun s hs => allows_get (h s hs)

/-- What would follow on a refusal does not matter. -/
theorem preserves_refuse_bind {e : StorageError} (he : cause e) (f : α → Action σ β) :
    Preserves keep cause (refuse e >>= f) := fun _ hs =>
  allows_bind (p := fun _ _ => False) (allows_refuse ⟨he, hs⟩) fun _ _ => False.elim

/-- An attempt is not refused, and what it answers is a refusal for one of the causes. -/
theorem preserves_attempt_bind {f : Except StorageError α → Action σ β}
    (h : Preserves keep cause x) (hok : ∀ a, Preserves keep cause (f (.ok a)))
    (hrefused : ∀ e, cause e → Preserves keep cause (f (.error e))) :
    Preserves keep cause (attempt x >>= f) := fun _ hs =>
  allows_attempt_bind ((h hs).mono (fun a _ hs' => hok a hs') fun e _ hpost =>
    hrefused e hpost.1 hpost.2)

theorem preserves_thenAlways {first second : Action σ Unit} (h : Preserves keep cause first)
    (hsecond : Preserves keep cause second) : Preserves keep cause (thenAlways first second) :=
  fun _ hs => (h hs).thenAlways fun _ hs' => hsecond hs'

/-- An action that is repeated for every element of a list keeps what each of the steps keeps. -/
theorem preserves_forM {f : α → Action σ PUnit} (xs : List α)
    (h : ∀ a, Preserves keep cause (f a)) : Preserves keep cause (xs.forM f) := by
  induction xs with
  | nil => exact preserves_pure _
  | cons a xs ih => exact preserves_bind (h a) fun _ => ih

end Preserves

end Action

end PagedHeap
