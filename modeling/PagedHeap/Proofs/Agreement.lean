import PagedHeap.Proofs.Ensures

/-!
# Actions that agree

Two actions on different states agree if they come to the same end: the same answer or the same
refusal, with states that stand in a given relation afterwards.  Where one operation is carried out
over two kinds of stores, what is known about one run can so be read off the other.

A trap of the first action says nothing about the second one, unless the agreement is called exact:
then both stop with the same trap.
-/

namespace PagedHeap

namespace Action

variable {σ τ σ' τ' α β : Type} {exact : Prop}

/-- From `s` and `t` the actions come to the same end: the same answer with states for which `ok`
holds, the same refusal with states for which `refused` holds, or a trap, which must be the same one
if the agreement is exact. -/
def Agrees (exact : Prop) (x : Action σ α) (y : Action τ α) (s : σ) (t : τ)
    (ok : α → σ → τ → Prop) (refused : StorageError → σ → τ → Prop) : Prop :=
  match x s with
  | .ok a s' => ∃ t', y t = .ok a t' ∧ ok a s' t'
  | .error (.error e) s' => ∃ t', y t = .error (.error e) t' ∧ refused e s' t'
  | .error (.trap c) _ => exact → ∃ t', y t = .error (.trap c) t'

/-- From related states the actions come to the same end, and the states after it are related. -/
def Keeps (exact : Prop) (rel : σ → τ → Prop) (x : Action σ α) (y : Action τ α) : Prop :=
  ∀ ⦃s t⦄, rel s t → Agrees exact x y s t (fun _ => rel) (fun _ => rel)

namespace Agrees

variable {x : Action σ α} {y : Action τ α} {s : σ} {t : τ} {ok ok' : α → σ → τ → Prop}
variable {refused refused' : StorageError → σ → τ → Prop}

/-- What is said about the states afterwards can be weakened. -/
theorem mono (h : Agrees exact x y s t ok refused) (hok : ∀ a s' t', ok a s' t' → ok' a s' t')
    (hrefused : ∀ e s' t', refused e s' t' → refused' e s' t') :
    Agrees exact x y s t ok' refused' := by
  unfold Agrees at h ⊢
  cases hres : x s with
  | ok a s' =>
    rw [hres] at h
    obtain ⟨t', ht, hpost⟩ := h
    exact ⟨t', ht, hok a s' t' hpost⟩
  | error f s' =>
    rw [hres] at h
    cases f with
    | error e =>
      obtain ⟨t', ht, hpost⟩ := h
      exact ⟨t', ht, hrefused e s' t' hpost⟩
    | trap c => exact h

/-- What the second action ensures holds as well. -/
theorem and_ensures (h : Agrees exact x y s t ok refused) {ok₂ : α → τ → Prop}
    {refused₂ : StorageError → τ → Prop} (hy : y.Ensures t ok₂ refused₂) :
    Agrees exact x y s t (fun a s' t' => ok a s' t' ∧ ok₂ a t')
      (fun e s' t' => refused e s' t' ∧ refused₂ e t') := by
  unfold Agrees at h ⊢
  cases hres : x s with
  | ok a s' =>
    rw [hres] at h
    obtain ⟨t', ht, hpost⟩ := h
    exact ⟨t', ht, hpost, hy.of_ok ht⟩
  | error f s' =>
    rw [hres] at h
    cases f with
    | error e =>
      obtain ⟨t', ht, hpost⟩ := h
      exact ⟨t', ht, hpost, hy.of_error ht⟩
    | trap c => exact h

/-- What is said about the states afterwards may mention the runs themselves. -/
theorem and_run (h : Agrees exact x y s t ok refused) :
    Agrees exact x y s t (fun a s' t' => ok a s' t' ∧ x s = .ok a s' ∧ y t = .ok a t') refused := by
  unfold Agrees at h ⊢
  cases hres : x s with
  | ok a s' =>
    rw [hres] at h
    obtain ⟨t', ht, hpost⟩ := h
    exact ⟨t', ht, hpost, rfl, ht⟩
  | error f s' =>
    rw [hres] at h
    cases f with
    | error e => exact h
    | trap c => exact h

/-- What is said about the states after a refusal may mention the run of the second action. -/
theorem and_refused (h : Agrees exact x y s t ok refused) :
    Agrees exact x y s t ok (fun e s' t' => refused e s' t' ∧ y t = .error (.error e) t') := by
  unfold Agrees at h ⊢
  cases hres : x s with
  | ok a s' =>
    rw [hres] at h
    exact h
  | error f s' =>
    rw [hres] at h
    cases f with
    | error e =>
      obtain ⟨t', ht, hpost⟩ := h
      exact ⟨t', ht, hpost, ht⟩
    | trap c => exact h

/-- An answer of the first action is one of the second. -/
theorem of_ok (h : Agrees exact x y s t ok refused) {a : α} {s' : σ} (hres : x s = .ok a s') :
    ∃ t', y t = .ok a t' ∧ ok a s' t' := by
  unfold Agrees at h
  rwa [hres] at h

/-- A refusal of the first action is one of the second. -/
theorem of_error (h : Agrees exact x y s t ok refused) {e : StorageError} {s' : σ}
    (hres : x s = .error (.error e) s') : ∃ t', y t = .error (.error e) t' ∧ refused e s' t' := by
  unfold Agrees at h
  rwa [hres] at h

/-- If the agreement is exact, a trap of the first action is one of the second. -/
theorem of_trap (h : Agrees exact x y s t ok refused) (hexact : exact) {c : Trap} {s' : σ}
    (hres : x s = .error (.trap c) s') : ∃ t', y t = .error (.trap c) t' := by
  unfold Agrees at h
  rw [hres] at h
  exact h hexact

/-- Two actions agree whose runs are known. -/
theorem of_run {a : α} {s' : σ} {t' : τ} (hx : x s = .ok a s') (hy : y t = .ok a t')
    (h : ok a s' t') : Agrees exact x y s t ok refused := by
  unfold Agrees
  rw [hx]
  exact ⟨t', hy, h⟩

/-- A first step of the first action alone. -/
theorem of_left {x : Action σ β} {f : β → Action σ α} {b : β} {s' : σ} (hx : x s = .ok b s')
    (h : Agrees exact (f b) y s' t ok refused) : Agrees exact (x >>= f) y s t ok refused := by
  unfold Agrees at h ⊢
  rwa [bind_run_ok hx]

/-- A first step of the second action alone. -/
theorem of_right {y : Action τ β} {g : β → Action τ α} {b : β} {t' : τ} (hy : y t = .ok b t')
    (h : Agrees exact x (g b) s t' ok refused) : Agrees exact x (y >>= g) s t ok refused := by
  unfold Agrees at h ⊢
  rwa [bind_run_ok hy]

/-- If the agreement is exact, an answer of the second action is one of the first. -/
theorem exists_ok (h : Agrees exact x y s t ok refused) (hexact : exact) {a : α} {t' : τ}
    (hres : y t = .ok a t') : ∃ s', x s = .ok a s' ∧ ok a s' t' := by
  unfold Agrees at h
  cases hx : x s with
  | ok b s' =>
    rw [hx] at h
    obtain ⟨t'', ht, hpost⟩ := h
    cases ht.symm.trans hres
    exact ⟨s', rfl, hpost⟩
  | error f s' =>
    rw [hx] at h
    cases f with
    | error e =>
      obtain ⟨t'', ht, -⟩ := h
      cases ht.symm.trans hres
    | trap c =>
      obtain ⟨t'', ht⟩ := h hexact
      cases ht.symm.trans hres

/-- If the agreement is exact, a refusal of the second action is one of the first. -/
theorem exists_error (h : Agrees exact x y s t ok refused) (hexact : exact) {e : StorageError}
    {t' : τ} (hres : y t = .error (.error e) t') :
    ∃ s', x s = .error (.error e) s' ∧ refused e s' t' := by
  unfold Agrees at h
  cases hx : x s with
  | ok b s' =>
    rw [hx] at h
    obtain ⟨t'', ht, -⟩ := h
    cases ht.symm.trans hres
  | error f s' =>
    rw [hx] at h
    cases f with
    | error e' =>
      obtain ⟨t'', ht, hpost⟩ := h
      cases ht.symm.trans hres
      exact ⟨s', rfl, hpost⟩
    | trap c =>
      obtain ⟨t'', ht⟩ := h hexact
      cases ht.symm.trans hres

end Agrees

/-! ## One rule for each way to build an action -/

section Rules

variable {s : σ} {t : τ} {refused : StorageError → σ → τ → Prop}

theorem agrees_pure {a : α} {ok : α → σ → τ → Prop} (h : ok a s t) :
    Agrees exact (pure a) (pure a) s t ok refused := ⟨t, rfl, h⟩

theorem agrees_modify {f : σ → σ} {g : τ → τ} {ok : PUnit → σ → τ → Prop}
    (h : ok ⟨⟩ (f s) (g t)) : Agrees exact (modify f) (modify g) s t ok refused := ⟨g t, rfl, h⟩

theorem agrees_set {s' : σ} {t' : τ} {ok : PUnit → σ → τ → Prop} (h : ok ⟨⟩ s' t') :
    Agrees exact (set s') (set t') s t ok refused := ⟨t', rfl, h⟩

theorem agrees_refuse {e : StorageError} {ok : α → σ → τ → Prop} (h : refused e s t) :
    Agrees exact (refuse e) (refuse e) s t ok refused := ⟨t, rfl, h⟩

theorem agrees_stop {c : Trap} {ok : α → σ → τ → Prop} :
    Agrees exact (stop c) (stop c) s t ok refused := fun _ => ⟨t, rfl⟩

theorem agrees_ofResult {r : Result α} {ok : α → σ → τ → Prop} (hok : ∀ a, r = .ok a → ok a s t)
    (hrefused : ∀ e, r = .error (.error e) → refused e s t) :
    Agrees exact (ofResult r) (ofResult r) s t ok refused := by
  cases r with
  | ok a => exact ⟨t, rfl, hok a rfl⟩
  | error f =>
    cases f with
    | error e => exact ⟨t, rfl, hrefused e rfl⟩
    | trap c => exact fun _ => ⟨t, rfl⟩

/-- The states are read, and what follows may depend on them. -/
theorem agrees_get {f : σ → Action σ α} {g : τ → Action τ α} {ok : α → σ → τ → Prop}
    (h : Agrees exact (f s) (g t) s t ok refused) :
    Agrees exact (get >>= f) (get >>= g) s t ok refused := h

theorem agrees_bind {x : Action σ α} {y : Action τ α} {f : α → Action σ β} {g : α → Action τ β}
    {p : α → σ → τ → Prop} {ok : β → σ → τ → Prop} (h : Agrees exact x y s t p refused)
    (hrest : ∀ a s' t', p a s' t' → Agrees exact (f a) (g a) s' t' ok refused) :
    Agrees exact (x >>= f) (y >>= g) s t ok refused := by
  unfold Agrees at h
  cases hres : x s with
  | ok a s' =>
    rw [hres] at h
    obtain ⟨t', ht, hmid⟩ := h
    have hnext := hrest a s' t' hmid
    unfold Agrees at hnext ⊢
    rw [bind_run_ok hres, bind_run_ok ht]
    exact hnext
  | error e s' =>
    rw [hres] at h
    unfold Agrees
    rw [bind_run_error hres]
    cases e with
    | error e =>
      obtain ⟨t', ht, hpost⟩ := h
      exact ⟨t', bind_run_error ht g, hpost⟩
    | trap c =>
      intro hexact
      obtain ⟨t', ht⟩ := h hexact
      exact ⟨t', bind_run_error ht g⟩

/-- Both actions go on after a check, which leaves the states as they are. -/
theorem agrees_ofResult_bind {r : Result α} {f : α → Action σ β} {g : α → Action τ β}
    {ok : β → σ → τ → Prop}
    (hok : ∀ a, r = .ok a → Agrees exact (f a) (g a) s t ok refused)
    (hrefused : ∀ e, r = .error (.error e) → refused e s t) :
    Agrees exact (ofResult r >>= f) (ofResult r >>= g) s t ok refused := by
  refine agrees_bind (p := fun a s' t' => r = .ok a ∧ s' = s ∧ t' = t)
    (agrees_ofResult (fun _ hr => ⟨hr, rfl, rfl⟩) hrefused) ?_
  rintro a _ _ ⟨hr, rfl, rfl⟩
  exact hok a hr

theorem agrees_attempt {x : Action σ α} {y : Action τ α}
    {ok : Except StorageError α → σ → τ → Prop}
    (h : Agrees exact x y s t (fun a => ok (.ok a)) (fun e => ok (.error e))) :
    Agrees exact (attempt x) (attempt y) s t ok refused := by
  unfold Agrees at h ⊢
  unfold attempt
  cases hres : x s with
  | ok a s' =>
    rw [hres] at h
    obtain ⟨t', ht, hpost⟩ := h
    exact ⟨t', by rw [ht], hpost⟩
  | error f s' =>
    rw [hres] at h
    cases f with
    | error e =>
      obtain ⟨t', ht, hpost⟩ := h
      exact ⟨t', by rw [ht], hpost⟩
    | trap c =>
      intro hexact
      obtain ⟨t', ht⟩ := h hexact
      exact ⟨t', by rw [ht]⟩

/-- What follows on an attempt may depend on whether it was refused. -/
theorem agrees_attempt_bind {x : Action σ α} {y : Action τ α}
    {f : Except StorageError α → Action σ β}
    {g : Except StorageError α → Action τ β} {ok : β → σ → τ → Prop}
    (h : Agrees exact x y s t (fun a s' t' => Agrees exact (f (.ok a)) (g (.ok a)) s' t' ok refused)
      fun e s' t' => Agrees exact (f (.error e)) (g (.error e)) s' t' ok refused) :
    Agrees exact (attempt x >>= f) (attempt y >>= g) s t ok refused :=
  agrees_bind (p := fun answer s' t' => Agrees exact (f answer) (g answer) s' t' ok refused)
    (agrees_attempt h) fun _ _ _ hpost => hpost

theorem agrees_quietly {x : Action σ Unit} {y : Action τ Unit} {ok : Unit → σ → τ → Prop}
    (h : Agrees exact x y s t ok (fun _ => ok ())) :
    Agrees exact (quietly x) (quietly y) s t ok refused := by
  unfold quietly
  refine agrees_bind (p := fun _ => ok ()) (agrees_attempt h) fun _ _ _ hpost => ?_
  exact agrees_pure hpost

/-- Both actions clean up, and refuse what they refused before. -/
theorem agrees_cleanUp {x : Action σ Unit} {y : Action τ Unit} {e : StorageError}
    {ok : α → σ → τ → Prop}
    (h : Agrees exact x y s t (fun _ => refused e) (fun _ => refused e)) :
    Agrees exact (do quietly x; refuse e : Action σ α) (do quietly y; refuse e) s t ok refused :=
  agrees_bind (agrees_quietly h) fun _ _ _ hpost => agrees_refuse hpost

theorem agrees_orClean {x : Action σ α} {y : Action τ α} {clean : Action σ Unit}
    {clean' : Action τ Unit} {ok : α → σ → τ → Prop}
    (h : Agrees exact x y s t ok fun e s' t' =>
      Agrees exact clean clean' s' t' (fun _ => refused e) (fun _ => refused e)) :
    Agrees exact (orClean x clean) (orClean y clean') s t ok refused := by
  unfold orClean
  exact agrees_attempt_bind (h.mono (fun _ _ _ hpost => agrees_pure hpost)
    fun _ _ _ hpost => agrees_cleanUp hpost)

theorem agrees_thenAlways {x second : Action σ Unit} {y second' : Action τ Unit}
    {ok : Unit → σ → τ → Prop}
    (h : Agrees exact x y s t (fun _ s' t' => Agrees exact second second' s' t' ok refused)
      fun e s' t' => Agrees exact second second' s' t' (fun _ => refused e) (fun _ => refused e)) :
    Agrees exact (thenAlways x second) (thenAlways y second') s t ok refused := by
  unfold thenAlways
  exact agrees_attempt_bind (h.mono (fun _ _ _ hpost => hpost)
    fun _ _ _ hpost => agrees_cleanUp hpost)

theorem agrees_onPart {get : σ → σ'} {set : σ' → σ → σ} {get' : τ → τ'} {set' : τ' → τ → τ}
    {x : Action σ' α} {y : Action τ' α} {ok : α → σ → τ → Prop}
    (h : Agrees exact x y (get s) (get' t) (fun a u v => ok a (set u s) (set' v t))
      (fun e u v => refused e (set u s) (set' v t))) :
    Agrees exact (onPart get set x) (onPart get' set' y) s t ok refused := by
  unfold Agrees at h ⊢
  unfold onPart
  cases hres : x (get s) with
  | ok a u =>
    rw [hres] at h
    obtain ⟨v, hv, hpost⟩ := h
    exact ⟨set' v t, by rw [hv], hpost⟩
  | error f u =>
    rw [hres] at h
    cases f with
    | error e =>
      obtain ⟨v, hv, hpost⟩ := h
      exact ⟨set' v t, by rw [hv], hpost⟩
    | trap c =>
      intro hexact
      obtain ⟨v, hv⟩ := h hexact
      exact ⟨set' v t, by rw [hv]⟩

end Rules

/-! ## Relations that are kept -/

section Keeps

variable {rel : σ → τ → Prop}

/-- An action agrees with itself. -/
theorem keeps_self (x : Action σ α) : Keeps exact Eq x x := by
  rintro s _ rfl
  unfold Agrees
  cases hres : x s with
  | ok a s' => exact ⟨s', rfl, rfl⟩
  | error f s' =>
    cases f with
    | error e => exact ⟨s', rfl, rfl⟩
    | trap c => exact fun _ => ⟨s', rfl⟩

theorem keeps_pure (a : α) : Keeps exact rel (pure a) (pure a) := fun _ _ h => agrees_pure h

theorem keeps_refuse (e : StorageError) : Keeps exact rel (refuse e : Action σ α) (refuse e) :=
  fun _ _ h => agrees_refuse h

theorem keeps_stop (c : Trap) : Keeps exact rel (stop c : Action σ α) (stop c) :=
  fun _ _ _ => agrees_stop

theorem keeps_ofResult (r : Result α) : Keeps exact rel (ofResult r) (ofResult r) :=
  fun _ _ h => agrees_ofResult (fun _ _ => h) fun _ _ => h

theorem keeps_modify {f : σ → σ} {g : τ → τ} (h : ∀ s t, rel s t → rel (f s) (g t)) :
    Keeps exact rel (modify f) (modify g) := fun s t hst => agrees_modify (h s t hst)

theorem keeps_bind {x : Action σ α} {y : Action τ α} {f : α → Action σ β} {g : α → Action τ β}
    (h : Keeps exact rel x y) (hrest : ∀ a, Keeps exact rel (f a) (g a)) :
    Keeps exact rel (x >>= f) (y >>= g) :=
  fun _ _ hst => agrees_bind (h hst) fun a _ _ hst' => hrest a hst'

/-- What is read of the states is the same on both sides. -/
theorem keeps_get {f : σ → Action σ α} {g : τ → Action τ α}
    (h : ∀ s t, rel s t → Agrees exact (f s) (g t) s t (fun _ => rel) (fun _ => rel)) :
    Keeps exact rel (get >>= f) (get >>= g) := fun s t hst => agrees_get (h s t hst)

/-- What would follow on a refusal does not matter. -/
theorem keeps_refuse_bind (e : StorageError) (f : α → Action σ β) (g : α → Action τ β) :
    Keeps exact rel (refuse e >>= f) (refuse e >>= g) := fun _ _ h =>
  agrees_bind (p := fun _ _ _ => False) (agrees_refuse h) fun _ _ _ => False.elim

theorem keeps_stop_bind (c : Trap) (f : α → Action σ β) (g : α → Action τ β) :
    Keeps exact rel (stop c >>= f) (stop c >>= g) := fun _ _ _ =>
  agrees_bind (p := fun _ _ _ => False) agrees_stop fun _ _ _ => False.elim

theorem keeps_attempt {x : Action σ α} {y : Action τ α} (h : Keeps exact rel x y) :
    Keeps exact rel (attempt x) (attempt y) := fun _ _ hst => agrees_attempt (h hst)

theorem keeps_quietly {x : Action σ Unit} {y : Action τ Unit} (h : Keeps exact rel x y) :
    Keeps exact rel (quietly x) (quietly y) := fun _ _ hst => agrees_quietly (h hst)

theorem keeps_orClean {x : Action σ α} {y : Action τ α} {clean : Action σ Unit}
    {clean' : Action τ Unit} (h : Keeps exact rel x y) (hclean : Keeps exact rel clean clean') :
    Keeps exact rel (orClean x clean) (orClean y clean') := fun _ _ hst =>
  agrees_orClean ((h hst).mono (fun _ _ _ => id) fun _ _ _ hst' => hclean hst')

theorem keeps_thenAlways {x second : Action σ Unit} {y second' : Action τ Unit}
    (h : Keeps exact rel x y) (hsecond : Keeps exact rel second second') :
    Keeps exact rel (thenAlways x second) (thenAlways y second') := fun _ _ hst =>
  agrees_thenAlways ((h hst).mono (fun _ _ _ hst' => hsecond hst') fun _ _ _ hst' => hsecond hst')

/-- Actions that are repeated for every element of a list keep what each of the steps keeps. -/
theorem keeps_forM {f : α → Action σ PUnit} {g : α → Action τ PUnit} {xs : List α}
    (h : ∀ a ∈ xs, Keeps exact rel (f a) (g a)) : Keeps exact rel (xs.forM f) (xs.forM g) := by
  induction xs with
  | nil => exact keeps_pure _
  | cons a xs ih =>
    change Keeps exact rel (f a >>= fun _ => xs.forM f) (g a >>= fun _ => xs.forM g)
    exact keeps_bind (h a (by simp)) fun _ => ih fun b hb => h b (by simp [hb])

/-- A relation between wholes is kept by actions on parts that keep one between the parts. -/
theorem keeps_onPart {part : σ' → τ' → Prop} {get : σ → σ'} {set : σ' → σ → σ} {get' : τ → τ'}
    {set' : τ' → τ → τ} {x : Action σ' α} {y : Action τ' α} (h : Keeps exact part x y)
    (hget : ∀ s t, rel s t → part (get s) (get' t))
    (hset : ∀ s t u v, rel s t → part u v → rel (set u s) (set' v t)) :
    Keeps exact rel (onPart get set x) (onPart get' set' y) := fun s t hst =>
  agrees_onPart ((h (hget s t hst)).mono (fun _ u v huv => hset s t u v hst huv)
    fun _ u v huv => hset s t u v hst huv)

end Keeps

end Action

end PagedHeap
