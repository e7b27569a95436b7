import Mathlib.Algebra.GroupWithZero.Nat
import Mathlib.Data.Multiset.Count
import Mathlib.Data.Set.Insert
import PagedHeap.Pool.Basic
import PagedHeap.Proofs.Table

/-!
# A pool and its holders

`Pool.Held base resident pins p` relates a pool to the multiset of all pins that were handed out
and not given back, and to the pages `base` of the files below it.  A frame counts exactly the pins
on its page, every pin is on the copy that the pool has now, and a frame that neither it nor one of
its holders calls changed agrees with the file.

The pages as they are seen through the pool are `Pool.overlay`: a page in a frame is the frame's,
any other is the file's.  Every change of a pool is described by what it does to the pins, to the
pages of the files and to this view.
-/

namespace PagedHeap

namespace Pool

/-- The pages as they are seen through the pool. -/
def overlay (p : Pool) (base : FrameKey → Page) (key : FrameKey) : Page :=
  match p.frames.find? key with
  | some frame => frame.page
  | none => base key

/-- The pool has counted all pins, and what it does not call changed agrees with the files. -/
structure Held (base : FrameKey → Page) (resident : Set FrameKey) (pins : Multiset Pin)
    (p : Pool) : Prop where
  /-- A frame counts the pins on its page. -/
  counted : ∀ key frame, p.frames.find? key = some frame →
    frame.pins = pins.countP (fun pin => pin.key = key) ∧
      frame.holders = pins.countP (fun pin => pin.key = key)
  /-- A pin is on the copy that is in the pool. -/
  held : ∀ pin ∈ pins, ∃ frame, p.frames.find? pin.key = some frame ∧ frame.serial = pin.serial
  /-- What nobody calls changed agrees with the file. -/
  clean : ∀ key frame, p.frames.find? key = some frame → frame.dirty = false →
    (∀ pin ∈ pins, pin.key = key → pin.dirty = false) → frame.page = base key
  /-- Only certain pages are ever in the pool. -/
  resident : ∀ key frame, p.frames.find? key = some frame → key ∈ resident

theorem overlay_of_find? {p : Pool} {base : FrameKey → Page} {key : FrameKey} {frame : Frame}
    (h : p.frames.find? key = some frame) : p.overlay base key = frame.page := by
  simp only [overlay, h]

theorem overlay_of_find?_none {p : Pool} {base : FrameKey → Page} {key : FrameKey}
    (h : p.frames.find? key = none) : p.overlay base key = base key := by
  simp only [overlay, h]

/-- Frames that keep their bytes show the same pages. -/
theorem overlay_of_map {p q : Pool} {g : FrameKey → Frame → Frame} {base base' : FrameKey → Page}
    (hfind : ∀ k, q.frames.find? k = (p.frames.find? k).map (g k))
    (hpage : ∀ k f, p.frames.find? k = some f → (g k f).page = f.page)
    (hbase : ∀ k, p.frames.find? k = none → base' k = base k) :
    q.overlay base' = p.overlay base := by
  funext k
  cases hk : p.frames.find? k with
  | none =>
    have hq : q.frames.find? k = none := by rw [hfind, hk]; rfl
    rw [overlay_of_find?_none hq, overlay_of_find?_none hk, hbase k hk]
  | some f =>
    have hq : q.frames.find? k = some (g k f) := by rw [hfind, hk]; rfl
    rw [overlay_of_find? hq, overlay_of_find? hk, hpage k f hk]

/-- Changing the frame of one page, seen as a change of every frame. -/
theorem find?_of_adjust {p q : Pool} {key : FrameKey} {f : Frame → Frame}
    (hframes : q.frames = p.frames.adjust key f) (k : FrameKey) :
    q.frames.find? k = (p.frames.find? k).map fun frame => if k = key then f frame else frame := by
  rw [hframes, Table.find?_adjust]
  by_cases hk : k = key
  · simp only [hk, if_true]
  · simp only [hk, if_false, Option.map_id']

/-- A pool without frames has no holders and shows the files. -/
theorem held_empty (base : FrameKey → Page) (resident : Set FrameKey) (capacity : Nat) :
    Held base resident 0 (empty capacity) where
  counted _ _ h := by cases h
  held pin hpin := absurd hpin (Multiset.notMem_zero pin)
  clean _ _ h := by cases h
  resident _ _ h := by cases h

namespace Held

variable {base : FrameKey → Page} {resident : Set FrameKey} {pins : Multiset Pin} {p q : Pool}

/-- A holder reads the page as it is seen through the pool. -/
theorem page_eq (h : Held base resident pins p) {pin : Pin} (hpin : pin ∈ pins) :
    p.page pin = p.overlay base pin.key := by
  obtain ⟨frame, hfind, hserial⟩ := h.held pin hpin
  rw [overlay_of_find? hfind, page, hfind]
  simp only [hserial, if_true]

/-- More pages may be in the pool. -/
theorem mono {resident' : Set FrameKey} (h : Held base resident pins p)
    (hsub : resident ⊆ resident') : Held base resident' pins p where
  counted := h.counted
  held := h.held
  clean := h.clean
  resident key frame hfind := hsub (h.resident key frame hfind)

/-- A frame without pins has no holder. -/
theorem ne_of_pins_eq_zero (h : Held base resident pins p) {key : FrameKey} {frame : Frame}
    (hfind : p.frames.find? key = some frame) (hpins : frame.pins = 0) :
    ∀ pin ∈ pins, pin.key ≠ key := by
  have hcount := (h.counted key frame hfind).1
  rw [hpins] at hcount
  exact Multiset.countP_eq_zero.1 hcount.symm

/-- A page that is not in the pool has no holder. -/
theorem ne_of_find?_none (h : Held base resident pins p) {key : FrameKey}
    (hfind : p.frames.find? key = none) : ∀ pin ∈ pins, pin.key ≠ key := fun pin hpin heq => by
  obtain ⟨frame, hfind', -⟩ := h.held pin hpin
  rw [heq, hfind] at hfind'
  cases hfind'

/-! ## Changes of single frames -/

/-- Frames that keep their serial numbers have the same holders, if they count them and what is not
called changed agrees with the files. -/
theorem of_map (h : Held base resident pins p) {g : FrameKey → Frame → Frame}
    {base' : FrameKey → Page} {pins' : Multiset Pin}
    (hfind : ∀ k, q.frames.find? k = (p.frames.find? k).map (g k))
    (hserial : ∀ k f, (g k f).serial = f.serial)
    (hcounted : ∀ k f, p.frames.find? k = some f →
      (g k f).pins = pins'.countP (fun pin => pin.key = k) ∧
        (g k f).holders = pins'.countP (fun pin => pin.key = k))
    (hheld : ∀ pin ∈ pins', ∃ f, p.frames.find? pin.key = some f ∧ f.serial = pin.serial)
    (hclean : ∀ k f, p.frames.find? k = some f → (g k f).dirty = false →
      (∀ pin ∈ pins', pin.key = k → pin.dirty = false) → (g k f).page = base' k) :
    Held base' resident pins' q where
  counted k f hk := by
    rw [hfind] at hk
    obtain ⟨f₀, hf₀, rfl⟩ := Option.map_eq_some_iff.1 hk
    exact hcounted k f₀ hf₀
  held pin hpin := by
    obtain ⟨f, hf, hs⟩ := hheld pin hpin
    exact ⟨g pin.key f, by rw [hfind, hf]; rfl, (hserial _ f).trans hs⟩
  clean k f hk := by
    rw [hfind] at hk
    obtain ⟨f₀, hf₀, rfl⟩ := Option.map_eq_some_iff.1 hk
    exact hclean k f₀ hf₀
  resident k f hk := by
    rw [hfind] at hk
    obtain ⟨f₀, hf₀, -⟩ := Option.map_eq_some_iff.1 hk
    exact h.resident k f₀ hf₀

/-! ## Pins come and go -/

/-- A page in the pool gets one more pin. -/
theorem pin_again (h : Held base resident pins p) {key : FrameKey} {frame : Frame}
    (hfind : p.frames.find? key = some frame)
    (hframes : q.frames = p.frames.adjust key fun f =>
      { f with pins := f.pins + 1, holders := f.holders + 1 }) :
    Held base resident (⟨key, frame.serial, false⟩ ::ₘ pins) q ∧
      q.overlay base = p.overlay base := by
  refine ⟨h.of_map (find?_of_adjust hframes) (fun k f => by split <;> rfl) (fun k f hf => ?_)
    (fun pin hpin => ?_) (fun k f hf hdirty hpins => ?_),
    overlay_of_map (find?_of_adjust hframes) (fun k f _ => by split <;> rfl) fun _ _ => rfl⟩
  · obtain ⟨hp, hh⟩ := h.counted k f hf
    rw [Multiset.countP_cons]
    by_cases hk : k = key
    · subst hk
      simp only [if_true, hp, hh, and_self]
    · simp only [hk, Ne.symm hk, if_false, hp, hh, Nat.add_zero, and_self]
  · rcases Multiset.mem_cons.1 hpin with rfl | hpin
    · exact ⟨frame, hfind, rfl⟩
    · exact h.held pin hpin
  · have hsame : (if k = key then { f with pins := f.pins + 1, holders := f.holders + 1 }
        else f).dirty = f.dirty ∧ (if k = key then
          { f with pins := f.pins + 1, holders := f.holders + 1 } else f).page = f.page := by
      split <;> exact ⟨rfl, rfl⟩
    rw [hsame.2]
    exact h.clean k f hf (hsame.1 ▸ hdirty) fun pin hpin =>
      hpins pin (Multiset.mem_cons_of_mem hpin)

/-- A pin is given up; the frame learns whether its holder changed the page. -/
theorem unpin {pin : Pin} (h : Held base resident (pin ::ₘ pins) p)
    (hfind : ∀ k, q.frames.find? k = (p.frames.find? k).map fun f => if k = pin.key then
      { f with pins := f.pins - 1, holders := f.holders - 1, dirty := f.dirty || pin.dirty }
      else f) :
    Held base resident pins q ∧ q.overlay base = p.overlay base := by
  refine ⟨h.of_map hfind (fun k f => by split <;> rfl) (fun k f hf => ?_)
    (fun pin' hpin => h.held pin' (Multiset.mem_cons_of_mem hpin))
    (fun k f hf hdirty hpins => ?_),
    overlay_of_map hfind (fun k f _ => by split <;> rfl) fun _ _ => rfl⟩
  · obtain ⟨hp, hh⟩ := h.counted k f hf
    rw [Multiset.countP_cons] at hp hh
    by_cases hk : k = pin.key
    · subst hk
      simp only [if_true] at hp hh ⊢
      omega
    · simp only [hk, Ne.symm hk, if_false, Nat.add_zero] at hp hh ⊢
      exact ⟨hp, hh⟩
  · by_cases hk : k = pin.key
    · subst hk
      simp only [if_true, Bool.or_eq_false_iff] at hdirty ⊢
      refine h.clean _ f hf hdirty.1 fun pin' hpin' hkey => ?_
      rcases Multiset.mem_cons.1 hpin' with rfl | hpin'
      · exact hdirty.2
      · exact hpins pin' hpin' hkey
    · simp only [hk, if_false] at hdirty ⊢
      refine h.clean k f hf hdirty fun pin' hpin' hkey => ?_
      rcases Multiset.mem_cons.1 hpin' with rfl | hpin'
      · exact absurd hkey.symm hk
      · exact hpins pin' hpin' hkey

/-- A holder that calls its page changed says no less than before. -/
theorem markDirty {pin : Pin} (h : Held base resident (pin ::ₘ pins) p) :
    Held base resident (pin.markDirty ::ₘ pins) p where
  counted k f hf := by
    have hc := h.counted k f hf
    rwa [Multiset.countP_cons] at hc ⊢
  held pin' hpin := by
    rcases Multiset.mem_cons.1 hpin with rfl | hpin
    · exact h.held pin (Multiset.mem_cons_self _ _)
    · exact h.held pin' (Multiset.mem_cons_of_mem hpin)
  clean k f hf hdirty hpins := by
    refine h.clean k f hf hdirty fun pin' hpin hkey => ?_
    rcases Multiset.mem_cons.1 hpin with rfl | hpin
    · have hmarked := hpins pin'.markDirty (Multiset.mem_cons_self _ _) hkey
      cases hmarked
    · exact hpins pin' (Multiset.mem_cons_of_mem hpin) hkey
  resident := h.resident

/-- A page that was not in the pool is taken in, with one pin. -/
theorem load (h : Held base resident pins p) {key : FrameKey} (hnone : p.frames.find? key = none)
    (page : Page) (dirty : Bool) (base' : FrameKey → Page)
    (hbase : ∀ k, k ≠ key → base' k = base k) (hclean : dirty = false → page = base' key) :
    Held base' (insert key resident) ((p.load key page dirty).1 ::ₘ pins)
        (p.load key page dirty).2 ∧
      (p.load key page dirty).2.overlay base' = Function.update (p.overlay base) key page := by
  have hself : (p.load key page dirty).2.frames.find? key =
      some ⟨page, dirty, 1, 1, p.nextSerial⟩ := Table.find?_put_self _ _ _
  have hother : ∀ k, k ≠ key → (p.load key page dirty).2.frames.find? k = p.frames.find? k :=
    fun k hk => Table.find?_put_of_ne (Ne.symm hk) _ _
  have hnew : (p.load key page dirty).1.key = key := rfl
  refine ⟨⟨fun k f hf => ?_, fun pin hpin => ?_, fun k f hf hdirty hpins => ?_,
    fun k f hf => ?_⟩, ?_⟩
  · by_cases hk : k = key
    · subst hk
      obtain rfl := Option.some.inj (hself.symm.trans hf)
      have hzero : pins.countP (fun pin => pin.key = k) = 0 :=
        Multiset.countP_eq_zero.2 (h.ne_of_find?_none hnone)
      rw [Multiset.countP_cons, hzero, if_pos hnew]
      exact ⟨rfl, rfl⟩
    · rw [hother k hk] at hf
      rw [Multiset.countP_cons, if_neg fun heq => hk (heq.symm.trans hnew), Nat.add_zero]
      exact h.counted k f hf
  · rcases Multiset.mem_cons.1 hpin with rfl | hpin
    · exact ⟨_, hself, rfl⟩
    · rw [hother _ (h.ne_of_find?_none hnone pin hpin)]
      exact h.held pin hpin
  · by_cases hk : k = key
    · subst hk
      obtain rfl := Option.some.inj (hself.symm.trans hf)
      exact hclean hdirty
    · rw [hother k hk] at hf
      rw [hbase k hk]
      exact h.clean k f hf hdirty fun pin hpin => hpins pin (Multiset.mem_cons_of_mem hpin)
  · by_cases hk : k = key
    · exact hk ▸ Set.mem_insert _ _
    · rw [hother k hk] at hf
      exact Set.mem_insert_of_mem _ (h.resident k f hf)
  · funext k
    by_cases hk : k = key
    · subst hk
      rw [Function.update_self, overlay_of_find? hself]
    · rw [Function.update_of_ne hk]
      unfold overlay
      rw [hother k hk, hbase k hk]

/-! ## Bytes and files change -/

/-- A holder that calls its page changed stores bytes into it. -/
theorem setPage (h : Held base resident pins p) {pin : Pin} (hpin : pin ∈ pins)
    (hdirty : pin.dirty = true) (page : Page) :
    Held base resident pins (p.setPage pin page) ∧
      (p.setPage pin page).overlay base = Function.update (p.overlay base) pin.key page := by
  obtain ⟨frame, hframe, hserial⟩ := h.held pin hpin
  have hframes : (p.setPage pin page).frames = p.frames.adjust pin.key fun frame =>
      if frame.serial = pin.serial then { frame with page := page } else frame := rfl
  have hfind := find?_of_adjust hframes
  refine ⟨h.of_map hfind (fun k f => by split <;> [split <;> rfl; rfl]) (fun k f hf => ?_) h.held
    (fun k f hf hclean hpins => ?_), ?_⟩
  · have hsame := h.counted k f hf
    split
    · split <;> exact hsame
    · exact hsame
  · by_cases hk : k = pin.key
    · have := hpins pin hpin hk.symm
      rw [hdirty] at this
      cases this
    · simp only [hk, if_false] at hclean ⊢
      exact h.clean k f hf hclean hpins
  · funext k
    by_cases hk : k = pin.key
    · subst hk
      have : (p.setPage pin page).frames.find? pin.key = some { frame with page := page } := by
        rw [hfind, hframe]
        simp only [Option.map_some, if_true, hserial]
      rw [Function.update_self, overlay_of_find? this]
    · have : (p.setPage pin page).frames.find? k = p.frames.find? k := by
        rw [hfind]
        simp only [hk, if_false, Option.map_id']
      rw [Function.update_of_ne hk]
      unfold overlay
      rw [this]

/-- A frame was written back: the file has its bytes now. -/
theorem written (h : Held base resident pins p) {key : FrameKey} {frame : Frame}
    (hfind : p.frames.find? key = some frame) :
    Held (Function.update base key frame.page) resident pins p ∧
      p.overlay (Function.update base key frame.page) = p.overlay base := by
  refine ⟨⟨h.counted, h.held, fun k f hf hdirty hpins => ?_, h.resident⟩, ?_⟩
  · by_cases hk : k = key
    · subst hk
      rw [Function.update_self, Option.some.inj (hfind.symm.trans hf)]
    · rw [Function.update_of_ne hk]
      exact h.clean k f hf hdirty hpins
  · funext k
    by_cases hk : k = key
    · subst hk
      rw [overlay_of_find? hfind, overlay_of_find? hfind]
    · unfold overlay
      rw [Function.update_of_ne hk]

/-- A frame that was written back counts as clean. -/
theorem setClean (h : Held base resident pins p) {key : FrameKey}
    (hwritten : ∀ frame, p.frames.find? key = some frame → frame.dirty = true →
      frame.page = base key) :
    Held base resident pins (p.setClean key) ∧
      (p.setClean key).overlay base = p.overlay base := by
  have hframes : (p.setClean key).frames =
      p.frames.adjust key fun frame => { frame with dirty := false } := rfl
  have hfind := find?_of_adjust hframes
  refine ⟨h.of_map hfind (fun k f => by split <;> rfl) (fun k f hf => ?_) h.held
    (fun k f hf hclean hpins => ?_), overlay_of_map hfind (fun k f _ => by split <;> rfl)
    fun _ _ => rfl⟩
  · have hsame := h.counted k f hf
    split <;> exact hsame
  · by_cases hk : k = key
    · subst hk
      simp only [if_true]
      cases hdirty : f.dirty with
      | true => exact hwritten f hf hdirty
      | false => exact h.clean k f hf hdirty hpins
    · simp only [hk, if_false] at hclean ⊢
      exact h.clean k f hf hclean hpins

/-- A frame without pins that agrees with its file is taken out. -/
theorem unload (h : Held base resident pins p) {key : FrameKey}
    (hfree : ∀ pin ∈ pins, pin.key ≠ key)
    (hagrees : ∀ frame, p.frames.find? key = some frame → frame.page = base key) :
    Held base resident pins (p.unload key) ∧ (p.unload key).overlay base = p.overlay base ∧
      (p.unload key).frames.find? key = none := by
  have hself : (p.unload key).frames.find? key = none := Table.find?_erase_self _ _
  have hother : ∀ k, k ≠ key → (p.unload key).frames.find? k = p.frames.find? k := fun k hk =>
    Table.find?_erase_of_ne (Ne.symm hk) _
  have hback : ∀ k f, (p.unload key).frames.find? k = some f → p.frames.find? k = some f :=
    fun k f hf => by
      by_cases hk : k = key
      · rw [hk, hself] at hf
        cases hf
      · rwa [hother k hk] at hf
  refine ⟨⟨fun k f hf => h.counted k f (hback k f hf), fun pin hpin => ?_,
    fun k f hf => h.clean k f (hback k f hf), fun k f hf => h.resident k f (hback k f hf)⟩, ?_,
    hself⟩
  · rw [hother _ (hfree pin hpin)]
    exact h.held pin hpin
  · funext k
    by_cases hk : k = key
    · subst hk
      rw [overlay_of_find?_none hself]
      cases hfind : p.frames.find? k with
      | none => rw [overlay_of_find?_none hfind]
      | some frame => rw [overlay_of_find? hfind, hagrees frame hfind]
    · unfold overlay
      rw [hother k hk]

end Held

end Pool

end PagedHeap
