import PagedHeap.Proofs.Ensures

/-!
# Actions that concur

Two pools that show the same pages may have different frames, so that an operation is refused for
want of a frame over one of them and carried out over the other.  Nothing else may differ: the
actions concur if they give the same answer or the same refusal whenever neither of them lacks a
frame (`Action.Concurs`).

As for agreement, there is one rule for each way to build an action.  A trap is treated like a lack
of frames, since nothing can be seen after it.
-/

namespace PagedHeap

namespace Action

variable {σ τ σ' τ' α β : Type}

/-- The action finds no frame, or stops. -/
inductive Lacks (x : Action σ α) (s : σ) : Prop
  /-- All frames are pinned. -/
  | exhausted {s' : σ} (run : x s = .error (.error .bufferPoolExhausted) s')
  /-- It stops with a trap. -/
  | stopped {c : Trap} {s' : σ} (run : x s = .error (.trap c) s')

/-- From `s` and `t` the actions come to the same end unless one of them lacks a frame: the same
answer with states for which `ok` holds, or the same refusal with states for which `refused` holds.
-/
inductive Concurs (x : Action σ α) (y : Action τ α) (s : σ) (t : τ) (ok : α → σ → τ → Prop)
    (refused : StorageError → σ → τ → Prop) : Prop
  /-- The first action lacks a frame. -/
  | left (lacks : x.Lacks s)
  /-- The second action lacks a frame. -/
  | right (lacks : y.Lacks t)
  /-- Both have the same answer. -/
  | answered {a : α} {s' : σ} {t' : τ} (left : x s = .ok a s') (right : y t = .ok a t')
      (post : ok a s' t')
  /-- Both are refused for the same cause. -/
  | refused {e : StorageError} {s' : σ} {t' : τ} (left : x s = .error (.error e) s')
      (right : y t = .error (.error e) t') (post : refused e s' t')

/-! ## Actions that lack a frame -/

section Lacking

variable {x : Action σ α} {s s' : σ}

/-- What comes behind a lack of frames is not carried out. -/
theorem Lacks.bind (h : x.Lacks s) (f : α → Action σ β) : (x >>= f).Lacks s := by
  cases h with
  | exhausted run => exact .exhausted (bind_run_error run f)
  | stopped run => exact .stopped (bind_run_error run f)

theorem Lacks.of_bind {f : α → Action σ β} {a : α} (hx : x s = .ok a s') (h : (f a).Lacks s') :
    (x >>= f).Lacks s := by
  cases h with
  | exhausted run => exact .exhausted ((bind_run_ok hx f).trans run)
  | stopped run => exact .stopped ((bind_run_ok hx f).trans run)

theorem Lacks.onPart {get : σ' → σ} {set : σ → σ' → σ'} {s : σ'} (h : x.Lacks (get s)) :
    (Action.onPart get set x).Lacks s := by
  cases h with
  | exhausted run => exact .exhausted (onPart_run_error run)
  | stopped run => exact .stopped (onPart_run_error run)

end Lacking

namespace Concurs

variable {x : Action σ α} {y : Action τ α} {s : σ} {t : τ} {ok ok' : α → σ → τ → Prop}
variable {refused refused' : StorageError → σ → τ → Prop}

/-- What is said about the states afterwards can be weakened. -/
theorem mono (h : Concurs x y s t ok refused) (hok : ∀ a s' t', ok a s' t' → ok' a s' t')
    (hrefused : ∀ e s' t', refused e s' t' → refused' e s' t') :
    Concurs x y s t ok' refused' := by
  cases h with
  | left lacks => exact .left lacks
  | right lacks => exact .right lacks
  | answered left right post => exact .answered left right (hok _ _ _ post)
  | refused left right post => exact .refused left right (hrefused _ _ _ post)

/-- Actions that run like others concur like them. -/
theorem of_run_eq {x' : Action σ α} {y' : Action τ α} (h : Concurs x y s t ok refused)
    (hx : x' s = x s) (hy : y' t = y t) : Concurs x' y' s t ok refused := by
  cases h with
  | left lacks =>
    refine .left ?_
    cases lacks with
    | exhausted run => exact .exhausted (hx.trans run)
    | stopped run => exact .stopped (hx.trans run)
  | right lacks =>
    refine .right ?_
    cases lacks with
    | exhausted run => exact .exhausted (hy.trans run)
    | stopped run => exact .stopped (hy.trans run)
  | answered left right post => exact .answered (hx.trans left) (hy.trans right) post
  | refused left right post => exact .refused (hx.trans left) (hy.trans right) post

/-- A first step of the first action alone. -/
theorem of_left {x : Action σ β} {f : β → Action σ α} {b : β} {s' : σ} (hx : x s = .ok b s')
    (h : Concurs (f b) y s' t ok refused) : Concurs (x >>= f) y s t ok refused := by
  have hrun := bind_run_ok hx f
  cases h with
  | left lacks => exact .left (.of_bind hx lacks)
  | right lacks => exact .right lacks
  | answered left right post => exact .answered (hrun.trans left) right post
  | refused left right post => exact .refused (hrun.trans left) right post

/-- A first step of the second action alone. -/
theorem of_right {y : Action τ β} {g : β → Action τ α} {b : β} {t' : τ} (hy : y t = .ok b t')
    (h : Concurs x (g b) s t' ok refused) : Concurs x (y >>= g) s t ok refused := by
  have hrun := bind_run_ok hy g
  cases h with
  | left lacks => exact .left lacks
  | right lacks => exact .right (.of_bind hy lacks)
  | answered left right post => exact .answered left (hrun.trans right) post
  | refused left right post => exact .refused left (hrun.trans right) post

/-- What the actions ensure on their own says whether they concur. -/
theorem of_ensures {okx : α → σ → Prop} {refusedx : StorageError → σ → Prop}
    {oky : α → τ → Prop} {refusedy : StorageError → τ → Prop} (hx : x.Ensures s okx refusedx)
    (hy : y.Ensures t oky refusedy)
    (hok : ∀ a s' b t', okx a s' → oky b t' → b = a ∧ ok a s' t')
    (hrefused : ∀ e s' e' t', refusedx e s' → refusedy e' t' →
      e = .bufferPoolExhausted ∨ e' = .bufferPoolExhausted ∨ e' = e ∧ refused e s' t')
    (hleft : ∀ e s' b t', refusedx e s' → oky b t' → e = .bufferPoolExhausted)
    (hright : ∀ a s' e t', okx a s' → refusedy e t' → e = .bufferPoolExhausted) :
    Concurs x y s t ok refused := by
  cases hresx : x s with
  | ok a s' =>
    cases hresy : y t with
    | ok b t' =>
      obtain ⟨rfl, hpost⟩ := hok a s' b t' (hx.of_ok hresx) (hy.of_ok hresy)
      exact .answered hresx hresy hpost
    | error f t' =>
      cases f with
      | trap c => exact .right (.stopped hresy)
      | error e =>
        obtain rfl := hright a s' e t' (hx.of_ok hresx) (hy.of_error hresy)
        exact .right (.exhausted hresy)
  | error f s' =>
    cases f with
    | trap c => exact .left (.stopped hresx)
    | error e =>
      cases hresy : y t with
      | ok b t' =>
        obtain rfl := hleft e s' b t' (hx.of_error hresx) (hy.of_ok hresy)
        exact .left (.exhausted hresx)
      | error f t' =>
        cases f with
        | trap c => exact .right (.stopped hresy)
        | error e' =>
          rcases hrefused e s' e' t' (hx.of_error hresx) (hy.of_error hresy) with
            rfl | rfl | ⟨rfl, hpost⟩
          · exact .left (.exhausted hresx)
          · exact .right (.exhausted hresy)
          · exact .refused hresx hresy hpost

end Concurs

/-! ## One rule for each way to build an action -/

section Rules

variable {s : σ} {t : τ} {refused : StorageError → σ → τ → Prop}

theorem concurs_pure {a : α} {ok : α → σ → τ → Prop} (h : ok a s t) :
    Concurs (pure a) (pure a) s t ok refused := .answered rfl rfl h

theorem concurs_modify {f : σ → σ} {g : τ → τ} {ok : PUnit → σ → τ → Prop}
    (h : ok ⟨⟩ (f s) (g t)) : Concurs (modify f) (modify g) s t ok refused := .answered rfl rfl h

theorem concurs_refuse {e : StorageError} {ok : α → σ → τ → Prop} (h : refused e s t) :
    Concurs (refuse e) (refuse e) s t ok refused := .refused rfl rfl h

theorem concurs_ofResult {r : Result α} {ok : α → σ → τ → Prop} (hok : ∀ a, r = .ok a → ok a s t)
    (hrefused : ∀ e, r = .error (.error e) → refused e s t) :
    Concurs (ofResult r) (ofResult r) s t ok refused := by
  cases r with
  | ok a => exact .answered rfl rfl (hok a rfl)
  | error f =>
    cases f with
    | error e => exact .refused rfl rfl (hrefused e rfl)
    | trap c => exact .left (.stopped rfl)

/-- The states are read, and what follows may depend on them. -/
theorem concurs_get {f : σ → Action σ α} {g : τ → Action τ α} {ok : α → σ → τ → Prop}
    (h : Concurs (f s) (g t) s t ok refused) :
    Concurs (get >>= f) (get >>= g) s t ok refused := h.of_run_eq rfl rfl

theorem concurs_bind {x : Action σ α} {y : Action τ α} {f : α → Action σ β} {g : α → Action τ β}
    {p : α → σ → τ → Prop} {ok : β → σ → τ → Prop} (h : Concurs x y s t p refused)
    (hrest : ∀ a s' t', p a s' t' → Concurs (f a) (g a) s' t' ok refused) :
    Concurs (x >>= f) (y >>= g) s t ok refused := by
  cases h with
  | left lacks => exact .left (lacks.bind f)
  | right lacks => exact .right (lacks.bind g)
  | @answered a s' t' left right post =>
    cases hrest a s' t' post with
    | left lacks => exact .left (.of_bind left lacks)
    | right lacks => exact .right (.of_bind right lacks)
    | answered left' right' post' =>
      exact .answered ((bind_run_ok left f).trans left') ((bind_run_ok right g).trans right') post'
    | refused left' right' post' =>
      exact .refused ((bind_run_ok left f).trans left') ((bind_run_ok right g).trans right') post'
  | refused left right post =>
    exact .refused (bind_run_error left f) (bind_run_error right g) post

/-- What follows on a result may depend on it; the states are as before. -/
theorem concurs_ofResult_bind {r : Result α} {f : α → Action σ β} {g : α → Action τ β}
    {ok : β → σ → τ → Prop} (hrefused : ∀ e, r = .error (.error e) → refused e s t)
    (hrest : ∀ a, r = .ok a → Concurs (f a) (g a) s t ok refused) :
    Concurs (ofResult r >>= f) (ofResult r >>= g) s t ok refused := by
  refine concurs_bind (p := fun a s' t' => r = .ok a ∧ s' = s ∧ t' = t)
    (concurs_ofResult (fun a ha => ⟨ha, rfl, rfl⟩) hrefused) ?_
  rintro a _ _ ⟨ha, rfl, rfl⟩
  exact hrest a ha

theorem concurs_onPart {get : σ → σ'} {set : σ' → σ → σ} {get' : τ → τ'} {set' : τ' → τ → τ}
    {x : Action σ' α} {y : Action τ' α} {ok : α → σ → τ → Prop}
    (h : Concurs x y (get s) (get' t) (fun a u v => ok a (set u s) (set' v t))
      (fun e u v => refused e (set u s) (set' v t))) :
    Concurs (onPart get set x) (onPart get' set' y) s t ok refused := by
  cases h with
  | left lacks => exact .left lacks.onPart
  | right lacks => exact .right lacks.onPart
  | answered left right post => exact .answered (onPart_run_ok left) (onPart_run_ok right) post
  | refused left right post =>
    exact .refused (onPart_run_error left) (onPart_run_error right) post

end Rules

end Action

end PagedHeap
