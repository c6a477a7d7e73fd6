import Mathlib.Data.List.Nodup
import K64Gateway.Lua.HeapCalls

/-
  The scripts and their memory, over whole runs.

  Between the calls the scripts write to what they hold. Proved: no run fails, and it is a run of an
  allocator (`run_lends`); what nobody touches stays as it is (`run_keeps`); when all is given back
  the heap is one block again (`run_gives_back`); and a call is refused only when no block is free
  that it could have, but for a block that it would fill to the end of the heap
  (`malloc_refused_iff`).
-/

namespace K64Gateway.Lua

open Tiling Window

/-! ## What the scripts do -/

inductive Event where
  | call (call : Call)
  | write (p : Nat) (bytes : List UInt8)

/-- The heap, and the pointers that the scripts hold. -/
structure Scripts where
  heap : Heap
  ptrs : List Nat

/-- What is held after a call that returned `r`. -/
def holds (ptrs : List Nat) : Call → Option Nat → List Nat
  | .free (some p), _ => ptrs.erase p
  | .realloc (some p) _, some q => q :: ptrs.erase p
  | _, some q => q :: ptrs
  | _, none => ptrs

def Scripts.step (s : Scripts) : Event → Option Scripts
  | .call call => (s.heap.call call).map fun (h, r) => ⟨h, holds s.ptrs call r⟩
  | .write p bytes =>
    some { s with heap := { s.heap with data := overlay s.heap.data p bytes } }

def Scripts.run (s : Scripts) : List Event → Option Scripts
  | [] => some s
  | e :: es => (s.step e).bind fun s => s.run es

/-- The scripts use what they hold, and ask for nothing that cannot be rounded up. -/
def Scripts.May (s : Scripts) : Event → Prop
  | .call (.calloc count size) => count * size % 2 ^ 32 + 3 < 2 ^ 32
  | .call (.free (some p)) => p ∈ s.ptrs
  | .call (.realloc (some p) _) => p ∈ s.ptrs
  | .call _ => True
  | .write p bytes => p ∈ s.ptrs ∧ p + bytes.length ≤ s.heap.next (p - sizeofStructMem)

def Scripts.Orderly (s : Scripts) : List Event → Prop
  | [] => True
  | e :: es => s.May e ∧ ∀ s', s.step e = some s' → s'.Orderly es

/-- The event cuts the end of a block off. -/
def Scripts.Shrinks (s : Scripts) : Event → Prop
  | .call call => s.heap.Shrinks call
  | .write _ _ => False

def Scripts.Shrinkless (s : Scripts) : List Event → Prop
  | [] => True
  | e :: es => ¬ s.Shrinks e ∧ ∀ s', s.step e = some s' → s'.Shrinkless es

instance (s : Scripts) (e : Event) : Decidable (s.May e) :=
  match e with
  | .call (.malloc _) => inferInstanceAs (Decidable True)
  | .call (.calloc _ _) => inferInstanceAs (Decidable (_ < _))
  | .call (.free none) => inferInstanceAs (Decidable True)
  | .call (.free (some _)) => inferInstanceAs (Decidable (_ ∈ _))
  | .call (.realloc none _) => inferInstanceAs (Decidable True)
  | .call (.realloc (some _) _) => inferInstanceAs (Decidable (_ ∈ _))
  | .write _ _ => inferInstanceAs (Decidable (_ ∧ _))

instance (s : Scripts) (e : Event) : Decidable (s.Shrinks e) :=
  match e with
  | .call (.realloc (some _) _) => inferInstanceAs (Decidable (_ < _))
  | .call (.realloc none _) => inferInstanceAs (Decidable False)
  | .call (.malloc _) => inferInstanceAs (Decidable False)
  | .call (.calloc _ _) => inferInstanceAs (Decidable False)
  | .call (.free _) => inferInstanceAs (Decidable False)
  | .write _ _ => inferInstanceAs (Decidable False)

/-- What holds after an event can be decided where the event can be. -/
instance decidableStep (s : Scripts) (e : Event) (p : Scripts → Prop) [DecidablePred p] :
    Decidable (∀ s', s.step e = some s' → p s') :=
  match s.step e with
  | none => isTrue fun _ hs' => nomatch hs'
  | some s' => decidable_of_iff (p s')
      ⟨fun hp _ ht => Option.some.inj ht ▸ hp, fun hall => hall s' rfl⟩

instance decidableOrderly : (es : List Event) → (s : Scripts) → Decidable (s.Orderly es)
  | [], _ => inferInstanceAs (Decidable True)
  | e :: es, s =>
    have := decidableOrderly es
    inferInstanceAs (Decidable (s.May e ∧ ∀ s', s.step e = some s' → s'.Orderly es))

instance decidableShrinkless : (es : List Event) → (s : Scripts) → Decidable (s.Shrinkless es)
  | [], _ => inferInstanceAs (Decidable True)
  | e :: es, s =>
    have := decidableShrinkless es
    inferInstanceAs (Decidable (¬ s.Shrinks e ∧ ∀ s', s.step e = some s' → s'.Shrinkless es))

/-! ## Runs of an allocator -/

inductive Alloc.Run : Alloc → List Nat → List Event → Alloc → List Nat → Prop
  | nil (a : Alloc) (ptrs : List Nat) : Run a ptrs [] a ptrs
  | call {a a' b : Alloc} {ptrs ptrs' : List Nat} {es : List Event} {call : Call}
      {r : Option Nat} (hstep : Alloc.Step a call r a')
      (hrun : Run a' (holds ptrs call r) es b ptrs') : Run a ptrs (.call call :: es) b ptrs'
  | write {a b : Alloc} {ptrs ptrs' : List Nat} {es : List Event} {p c : Nat}
      {bytes : List UInt8} (hlive : a.live p c) (hroom : bytes.length ≤ c)
      (hrun : Run { a with data := overlay a.data p bytes } ptrs es b ptrs') :
      Run a ptrs (.write p bytes :: es) b ptrs'

/-- What is lent does not overlap. -/
def Alloc.Apart (a : Alloc) : Prop :=
  ∀ p c q d, a.live p c → a.live q d → p = q ∧ c = d ∨ p ≠ q ∧ (p + c ≤ q ∨ q + d ≤ p)

/-- The event is about the stretch at `q`. -/
def Event.Names (q : Nat) : Event → Prop
  | .call (.free p) => p = some q
  | .call (.realloc p _) => p = some q
  | .call _ => False
  | .write p _ => p = q

variable {a b : Alloc} {call : Call} {r : Option Nat}

theorem Alloc.Apart.lend {p c : Nat} (ha : a.Apart) (hfresh : a.Fresh p c) :
    (a.lend p c).Apart := by
  rintro q d q' d' (⟨rfl, rfl⟩ | hq) (⟨rfl, rfl⟩ | hq')
  · exact Or.inl ⟨rfl, rfl⟩
  · exact Or.inr (hfresh _ _ hq')
  · obtain ⟨hne, hapart⟩ := hfresh _ _ hq
    exact Or.inr ⟨hne.symm, hapart.symm⟩
  · exact ha _ _ _ _ hq hq'

theorem Alloc.Apart.takeBack {p : Nat} (ha : a.Apart) : (a.takeBack p).Apart :=
  fun _ _ _ _ hq hq' => ha _ _ _ _ hq.2 hq'.2

theorem Alloc.Apart.setData (ha : a.Apart) (data : Nat → UInt8) :
    Alloc.Apart { a with data := data } := ha

/-- A stretch that is lent and nothing else is lent again, shorter. -/
theorem Alloc.Apart.fresh_takeBack {p c c' : Nat} (ha : a.Apart) (hlive : a.live p c)
    (hle : c' ≤ c) : (a.takeBack p).Fresh p c' := by
  rintro q d ⟨hne, hq⟩
  rcases ha _ _ _ _ hlive hq with ⟨heq, -⟩ | ⟨hne', hapart⟩
  · exact absurd heq.symm hne
  · exact ⟨hne', hapart.imp_left fun hle' => Nat.le_trans (by omega) hle'⟩

theorem Alloc.Step.apart (hstep : Alloc.Step a call r b) (ha : a.Apart) : b.Apart := by
  cases hstep with
  | refused => exact ha
  | malloc hfresh => exact ha.lend hfresh
  | calloc hfresh => exact (ha.lend hfresh).setData _
  | free => exact ha.takeBack
  | reallocNull hfresh => exact ha.lend hfresh
  | reallocKeep hlive hroom hle => exact ha.takeBack.lend (ha.fresh_takeBack hlive hle)
  | reallocMove hlive hfresh => exact ((ha.lend hfresh).takeBack).setData _

/-- A call does not touch a stretch that it is not about. -/
theorem Alloc.Step.keeps (hstep : Alloc.Step a call r b) {q d : Nat} (hq : a.live q d)
    (hnot : ¬ (Event.call call).Names q) :
    b.live q d ∧ window b.data q d = window a.data q d := by
  cases hstep with
  | refused => exact ⟨hq, rfl⟩
  | malloc => exact ⟨Or.inr hq, rfl⟩
  | calloc hfresh hroom =>
    refine ⟨Or.inr hq, window_overlay_apart ?_⟩
    obtain ⟨-, hapart⟩ := hfresh q d hq
    rw [List.length_replicate]
    omega
  | free => exact ⟨⟨fun heq => hnot (congrArg some heq.symm), hq⟩, rfl⟩
  | reallocNull => exact ⟨Or.inr hq, rfl⟩
  | reallocKeep => exact ⟨Or.inr ⟨fun heq => hnot (congrArg some heq.symm), hq⟩, rfl⟩
  | reallocMove hlive hfresh hroom =>
    refine ⟨⟨fun heq => hnot (congrArg some heq.symm), Or.inr hq⟩, window_overlay_apart ?_⟩
    obtain ⟨-, hapart⟩ := hfresh q d hq
    rw [length_window]
    omega

theorem Alloc.Run.apart {ptrs ptrs' : List Nat} {es : List Event}
    (hrun : Alloc.Run a ptrs es b ptrs') (ha : a.Apart) : b.Apart := by
  induction hrun with
  | nil => exact ha
  | call hstep _ ih => exact ih (hstep.apart ha)
  | write _ _ _ ih => exact ih (ha.setData _)

/-- What nobody touches in a run stays as it is. -/
theorem Alloc.Run.keeps {ptrs ptrs' : List Nat} {es : List Event}
    (hrun : Alloc.Run a ptrs es b ptrs') (ha : a.Apart) {q d : Nat} (hq : a.live q d)
    (hnot : ∀ e ∈ es, ¬ e.Names q) : b.live q d ∧ window b.data q d = window a.data q d := by
  induction hrun with
  | nil => exact ⟨hq, rfl⟩
  | call hstep _ ih =>
    obtain ⟨hlive, hdata⟩ := hstep.keeps hq (hnot _ List.mem_cons_self)
    obtain ⟨hlive', hdata'⟩ := ih (hstep.apart ha) hlive
      fun e he => hnot e (List.mem_cons_of_mem _ he)
    exact ⟨hlive', hdata'.trans hdata⟩
  | @write a b ptrs ptrs' es p c bytes hlive hroom _ ih =>
    have hne : p ≠ q := hnot _ List.mem_cons_self
    obtain ⟨hlive', hdata'⟩ := ih (ha.setData _) hq
      fun e he => hnot e (List.mem_cons_of_mem _ he)
    refine ⟨hlive', hdata'.trans (window_overlay_apart ?_)⟩
    rcases ha _ _ _ _ hlive hq with ⟨heq, -⟩ | ⟨-, hapart⟩
    · exact absurd heq hne
    · omega

/-- A `realloc` keeps what was written. -/
theorem Alloc.Step.realloc_keeps {p q c newsize : Nat}
    (hstep : Alloc.Step a (.realloc (some p) newsize) (some q) b) (ha : a.Apart)
    (hlive : a.live p c) :
    ∃ d, b.live q d ∧ rtAlign newsize ≤ d ∧
      window b.data q (min c (rtAlign newsize)) = window a.data p (min c (rtAlign newsize)) := by
  cases hstep with
  | reallocKeep hlive' hroom hle => exact ⟨_, Or.inl ⟨rfl, rfl⟩, hroom, rfl⟩
  | @reallocMove _ _ _ c' d hlive' hfresh hroom =>
    obtain ⟨hne, -⟩ := hfresh _ _ hlive
    obtain rfl : c = c' := by
      rcases ha _ _ _ _ hlive hlive' with ⟨-, heq⟩ | ⟨hne, -⟩
      · exact heq
      · exact absurd rfl hne
    refine ⟨d, ⟨hne, Or.inl ⟨rfl, rfl⟩⟩, hroom, ?_⟩
    have hcopy := window_overlay a.data q (window a.data p (min c (rtAlign newsize)))
    rw [length_window] at hcopy
    exact hcopy

/-! ## The pointers that are held -/

/-- The scripts hold what is lent. -/
def Alloc.Held (a : Alloc) (ptrs : List Nat) : Prop :=
  ptrs.Nodup ∧ ∀ p, p ∈ ptrs ↔ ∃ c, a.live p c

theorem Alloc.Held.lend {ptrs : List Nat} {p c : Nat} (hheld : a.Held ptrs) (hfresh : a.Fresh p c) :
    (a.lend p c).Held (p :: ptrs) := by
  obtain ⟨hnodup, hmem⟩ := hheld
  refine ⟨List.nodup_cons.mpr ⟨fun hp => ?_, hnodup⟩, fun q => ?_⟩
  · obtain ⟨d, hd⟩ := (hmem p).mp hp
    exact (hfresh p d hd).1 rfl
  · rw [List.mem_cons, hmem q]
    constructor
    · rintro (rfl | ⟨d, hd⟩)
      · exact ⟨c, Or.inl ⟨rfl, rfl⟩⟩
      · exact ⟨d, Or.inr hd⟩
    · rintro ⟨d, ⟨rfl, -⟩ | hd⟩
      · exact Or.inl rfl
      · exact Or.inr ⟨d, hd⟩

theorem Alloc.Held.takeBack {ptrs : List Nat} {p : Nat} (hheld : a.Held ptrs) :
    (a.takeBack p).Held (ptrs.erase p) := by
  obtain ⟨hnodup, hmem⟩ := hheld
  refine ⟨hnodup.erase p, fun q => ?_⟩
  rw [hnodup.mem_erase_iff, hmem q]
  exact ⟨fun ⟨hne, d, hd⟩ => ⟨d, hne, hd⟩, fun ⟨d, hne, hd⟩ => ⟨hne, d, hd⟩⟩

theorem lend_takeBack {p q d : Nat} (hne : q ≠ p) :
    (a.lend q d).takeBack p = (a.takeBack p).lend q d := by
  refine alloc_ext (fun q' d' => ?_) rfl
  constructor
  · rintro ⟨hp, heq | hlive⟩
    · exact Or.inl heq
    · exact Or.inr ⟨hp, hlive⟩
  · rintro (⟨rfl, rfl⟩ | ⟨hp, hlive⟩)
    · exact ⟨hne, Or.inl ⟨rfl, rfl⟩⟩
    · exact ⟨hp, Or.inr hlive⟩

theorem Alloc.Step.held {ptrs : List Nat} (hstep : Alloc.Step a call r b) (ha : a.Apart)
    (hheld : a.Held ptrs) : b.Held (holds ptrs call r) := by
  cases hstep with
  | refused _ hcall =>
    cases call with
    | malloc | calloc => exact hheld
    | free p =>
      cases p with
      | none => exact hheld
      | some p => exact absurd rfl (hcall p)
    | realloc p =>
      cases p <;> exact hheld
  | malloc hfresh => exact hheld.lend hfresh
  | calloc hfresh => exact hheld.lend hfresh
  | free => exact hheld.takeBack
  | reallocNull hfresh => exact hheld.lend hfresh
  | reallocKeep hlive _ hle => exact hheld.takeBack.lend (ha.fresh_takeBack hlive hle)
  | @reallocMove _ p q c d hlive hfresh =>
    have hnew : ((a.takeBack p).lend q d).Held (q :: ptrs.erase p) :=
      hheld.takeBack.lend fun q' d' hq => hfresh q' d' hq.2
    rw [← lend_takeBack (hfresh p c hlive).1] at hnew
    exact hnew

/-! ## The scripts on the heap -/

/-- What holds between the events. -/
structure Sane (s : Scripts) (blocks : List Nat) : Prop where
  inv : Inv s.heap blocks
  held : (s.heap.alloc blocks).Held s.ptrs

variable {s : Scripts} {blocks : List Nat} {e : Event} {es : List Event}

theorem alloc_apart {h : Heap} (hinv : Inv h blocks) : (h.alloc blocks).Apart := by
  intro p c q d hp hq
  by_cases hne : p = q
  · subst hne
    obtain ⟨x, -, -, rfl, hnext⟩ := hp
    obtain ⟨y, -, -, heq, hnext'⟩ := hq
    obtain rfl : x = y := by omega
    exact Or.inl ⟨rfl, by omega⟩
  · have hapart := live_apart hinv hp hq hne
    exact Or.inr ⟨hne, by omega⟩

theorem Sane.allows (hs : Sane s blocks) {call : Call} (hmay : s.May (.call call)) :
    (s.heap.alloc blocks).Allows call := by
  cases call with
  | malloc => trivial
  | calloc => exact hmay
  | free p =>
    cases p with
    | none => trivial
    | some p => exact (hs.held.2 p).mp hmay
  | realloc p =>
    cases p with
    | none => trivial
    | some p => exact (hs.held.2 p).mp hmay

/-- A step of the scripts. -/
theorem step_refines (hs : Sane s blocks) (hmay : s.May e) :
    ∃ s' blocks', s.step e = some s' ∧ Sane s' blocks' ∧ s'.heap.heap_end = s.heap.heap_end ∧
      (¬ s.Shrinks e → Lowest s.heap blocks → Lowest s'.heap blocks') ∧
      ∀ {es b ptrs'}, Alloc.Run (s'.heap.alloc blocks') s'.ptrs es b ptrs' →
        Alloc.Run (s.heap.alloc blocks) s.ptrs (e :: es) b ptrs' := by
  cases e with
  | call call =>
    obtain ⟨h', r, blocks', hret, hinv', hend, hlow, hstep⟩ := call_refines hs.inv (hs.allows hmay)
    refine ⟨⟨h', holds s.ptrs call r⟩, blocks', ?_, ⟨hinv', ?_⟩, hend,
      hlow, fun hrun => .call hstep hrun⟩
    · unfold Scripts.step
      dsimp only
      rw [hret]
      rfl
    · exact hstep.held (alloc_apart hs.inv) hs.held
  | write p bytes =>
    obtain ⟨hp, hroom⟩ := hmay
    obtain ⟨c, hlive⟩ := (hs.held.2 p).mp hp
    refine ⟨_, blocks, rfl, ⟨hs.inv.setData _, hs.held⟩, rfl, fun _ => id,
      fun hrun => .write hlive ?_ hrun⟩
    obtain ⟨x, -, -, rfl, hnext⟩ := hlive
    rw [Nat.add_sub_cancel] at hroom
    omega

/-- A run of the scripts. -/
theorem run_refines (hs : Sane s blocks) (hes : s.Orderly es) :
    ∃ s' blocks', s.run es = some s' ∧ Sane s' blocks' ∧ s'.heap.heap_end = s.heap.heap_end ∧
      (s.Shrinkless es → Lowest s.heap blocks → Lowest s'.heap blocks') ∧
      Alloc.Run (s.heap.alloc blocks) s.ptrs es (s'.heap.alloc blocks') s'.ptrs := by
  induction es generalizing s blocks with
  | nil => exact ⟨s, blocks, rfl, hs, rfl, fun _ => id, .nil _ _⟩
  | cons e es ih =>
    obtain ⟨hmay, hrest⟩ := hes
    obtain ⟨s₁, blocks₁, hstep, hs₁, hend₁, hlow₁, hback⟩ := step_refines hs hmay
    obtain ⟨s', blocks', hrun, hs', hend', hlow', hruns⟩ := ih hs₁ (hrest s₁ hstep)
    refine ⟨s', blocks', ?_, hs', hend'.trans hend₁, ?_, hback hruns⟩
    · unfold Scripts.run
      rw [hstep]
      exact hrun
    · rintro ⟨hnot, hshrinkless⟩ hlow
      exact hlow' (hshrinkless s₁ hstep) (hlow₁ hnot hlow)

/-- The scripts before they have done anything. -/
def Scripts.start (h : Heap) : Scripts := ⟨h.lua_system_heap_init, []⟩

theorem not_live_start (h : Heap) (p c : Nat) : ¬ Live h.lua_system_heap_init [0] p c := by
  rintro ⟨x, hx, huse, -⟩
  rw [List.mem_singleton.mp hx, used_lua_system_heap_init] at huse
  exact absurd huse (by decide)

theorem sane_start (h : Heap) (hused : h.used_mem = 0) : Sane (Scripts.start h) [0] where
  inv := inv_lua_system_heap_init h hused
  held := ⟨List.nodup_nil, fun p => ⟨fun hp => absurd hp List.not_mem_nil,
    fun ⟨c, hc⟩ => absurd hc (not_live_start h p c)⟩⟩

/-- The bytes that are counted are those of the blocks whose pointers are held. -/
theorem Sane.used_mem (hs : Sane s blocks) :
    s.heap.used_mem =
      (s.ptrs.map fun p => s.heap.next (p - sizeofStructMem) - (p - sizeofStructMem)).sum := by
  have hnodup := hs.inv.shape.tiled.nodup (by decide)
  have hperm : s.ptrs.Perm ((blocks.filter s.heap.used).map (· + sizeofStructMem)) := by
    refine (List.perm_ext_iff_of_nodup hs.held.1 ?_).mpr fun p => ?_
    · exact (hnodup.filter _).map fun x y heq => Nat.add_right_cancel heq
    · rw [hs.held.2 p, List.mem_map]
      constructor
      · rintro ⟨c, x, hx, huse, rfl, -⟩
        exact ⟨x, List.mem_filter.mpr ⟨hx, huse⟩, rfl⟩
      · rintro ⟨x, hx, rfl⟩
        obtain ⟨hx, huse⟩ := List.mem_filter.mp hx
        have hbounds := hs.inv.shape.tiled.seg.bounds hx
        exact ⟨s.heap.next x - (x + sizeofStructMem), x, hx, huse, rfl, by omega⟩
  rw [hs.inv.shape.used_mem, (hperm.map _).sum_nat, List.map_map]
  rfl

/-- A heap of 60 bytes, before it is set up. -/
def heap60 : Heap where
  mem_size_aligned := 60
  next _ := 0
  prev _ := 0
  used _ := false
  magic _ := false
  lfree := 0
  used_mem := 0
  max_mem := 0
  data _ := 0
  aligned := by decide
  room := by decide
  small := by decide

theorem run_append (s : Scripts) (es es' : List Event) :
    s.run (es ++ es') = (s.run es).bind fun s => s.run es' := by
  induction es generalizing s with
  | nil => rfl
  | cons e es ih =>
    show (s.step e).bind _ = ((s.step e).bind _).bind _
    rw [Option.bind_assoc]
    congr 1
    funext s'
    exact ih s'

theorem orderly_append {s : Scripts} {es es' : List Event} (h : s.Orderly (es ++ es')) :
    s.Orderly es ∧ ∀ s', s.run es = some s' → s'.Orderly es' := by
  induction es generalizing s with
  | nil => exact ⟨trivial, fun s' hs' => Option.some.inj hs' ▸ h⟩
  | cons e es ih =>
    obtain ⟨hmay, hrest⟩ := h
    refine ⟨⟨hmay, fun s' hs' => (ih (hrest s' hs')).1⟩, fun s' hs' => ?_⟩
    obtain ⟨s₁, hstep, hrun⟩ := Option.bind_eq_some_iff.mp hs'
    exact (ih (hrest s₁ hstep)).2 s' hrun

/-- From any point of a run on, what nobody frees, resizes or writes is still held, is as long as it
was and has the same bytes. -/
theorem run_keeps (h : Heap) (hused : h.used_mem = 0) {es es' : List Event}
    (hes : (Scripts.start h).Orderly (es ++ es')) {p : Nat} (hnot : ∀ e ∈ es', ¬ e.Names p) :
    ∃ s s', (Scripts.start h).run es = some s ∧ (Scripts.start h).run (es ++ es') = some s' ∧
      (p ∈ s.ptrs → p ∈ s'.ptrs ∧
        s'.heap.next (p - sizeofStructMem) = s.heap.next (p - sizeofStructMem) ∧
        window s'.heap.data p (s.heap.next (p - sizeofStructMem) - p) =
          window s.heap.data p (s.heap.next (p - sizeofStructMem) - p)) := by
  obtain ⟨hfirst, hsecond⟩ := orderly_append hes
  obtain ⟨s, blocks, hrun, hs, -, -, -⟩ := run_refines (sane_start h hused) hfirst
  obtain ⟨s', blocks', hrun', hs', -, -, hruns⟩ := run_refines hs (hsecond s hrun)
  refine ⟨s, s', hrun, ?_, fun hp => ?_⟩
  · rw [run_append, hrun]
    exact hrun'
  · obtain ⟨c, hlive⟩ := (hs.held.2 p).mp hp
    obtain ⟨hlive', hdata⟩ := hruns.keeps (alloc_apart hs.inv) hlive hnot
    refine ⟨(hs'.held.2 p).mpr ⟨c, hlive'⟩, ?_⟩
    obtain ⟨x, -, -, rfl, hnext⟩ := hlive
    obtain ⟨y, -, -, heq, hnext'⟩ := hlive'
    obtain rfl : x = y := by omega
    rw [Nat.add_sub_cancel, hnext, hnext', Nat.add_sub_cancel_left]
    exact ⟨rfl, hdata⟩

theorem run_keeps_heap60 : ∃ s s',
    (Scripts.start heap60).run [.call (.malloc 12), .write 8 [1, 2]] = some s ∧
      (Scripts.start heap60).run ([.call (.malloc 12), .write 8 [1, 2]] ++
        [.call (.calloc 2 4), .write 28 [3], .call (.free (some 28))]) = some s' ∧
      (8 ∈ s.ptrs → 8 ∈ s'.ptrs ∧
        s'.heap.next (8 - sizeofStructMem) = s.heap.next (8 - sizeofStructMem) ∧
        window s'.heap.data 8 (s.heap.next (8 - sizeofStructMem) - 8) =
          window s.heap.data 8 (s.heap.next (8 - sizeofStructMem) - 8)) :=
  run_keeps heap60 rfl (by decide +kernel) (by simp [Event.Names])

/-! ## When all is given back -/

/-- What a heap of one free block lends. -/
theorem lua_malloc_single {h : Heap} (hnext : h.next 0 = h.heap_end) (hfree : h.used 0 = false)
    (hlfree : h.lfree = 0) (size : Nat) :
    (h.lua_malloc size).2 =
      if size = 0 ∨ h.mem_size_aligned ≤ max (rtAlign size) minSizeAligned then none
      else some sizeofStructMem := by
  have hsearch : ∀ want, h.search want h.heap_end 0 =
      if want < h.mem_size_aligned then some 0 else none := by
    intro want
    show (if 0 < h.mem_size_aligned - want then _ else none) = _
    by_cases hlt : want < h.mem_size_aligned
    · have hfit : want ≤ h.next 0 - (0 + sizeofStructMem) := by
        rw [hnext]
        unfold Heap.heap_end
        omega
      rw [if_pos (by omega), if_pos hlt, if_pos ⟨hfree, hfit⟩]
    · rw [if_neg (by omega), if_neg hlt]
  unfold Heap.lua_malloc
  by_cases hzero : size = 0
  · rw [if_pos hzero, if_pos (Or.inl hzero)]
  · rw [if_neg hzero]
    dsimp only
    rw [hlfree, hsearch]
    by_cases hroom : h.mem_size_aligned ≤ max (rtAlign size) minSizeAligned
    · rw [if_neg (Nat.not_lt.mpr hroom), if_pos (Or.inr hroom)]
      split <;> rfl
    · have hle := Nat.le_max_left (rtAlign size) minSizeAligned
      rw [if_neg (by omega), if_pos (Nat.not_le.mp hroom), if_neg (not_or.mpr ⟨hzero, hroom⟩)]
      rfl

/-- When the scripts hold nothing, the heap is one free block, and lends what a new heap would. -/
theorem run_gives_back (h : Heap) (hused : h.used_mem = 0) (hes : (Scripts.start h).Orderly es)
    (hrun : (Scripts.start h).run es = some s) (hptrs : s.ptrs = []) :
    s.heap.next 0 = h.heap_end ∧ s.heap.used 0 = false ∧ s.heap.lfree = 0 ∧
      s.heap.used_mem = 0 ∧
      ∀ size, (s.heap.lua_malloc size).2 = (h.lua_system_heap_init.lua_malloc size).2 := by
  obtain ⟨s', blocks, hrun', hs, hend, -, -⟩ := run_refines (sane_start h hused) hes
  obtain rfl : s' = s := Option.some.inj (hrun'.symm.trans hrun)
  have hend' : s'.heap.heap_end = h.heap_end := hend
  have hmem : s'.heap.mem_size_aligned = h.mem_size_aligned := Nat.add_right_cancel hend'
  have htiled := hs.inv.shape.tiled
  have hfree : ∀ z ∈ blocks, s'.heap.used z = false := by
    intro z hz
    by_contra huse
    have hbounds := htiled.seg.bounds hz
    have hp : z + sizeofStructMem ∈ s'.ptrs := (hs.held.2 _).mpr
      ⟨s'.heap.next z - (z + sizeofStructMem), z, hz, Bool.not_eq_false _ ▸ huse, rfl, by omega⟩
    rw [hptrs] at hp
    exact absurd hp List.not_mem_nil
  -- two free blocks would be beside each other
  obtain rfl : blocks = [0] := by
    match blocks, htiled, hs.inv.coalesced, hfree with
    | [], htiled, _, _ =>
      have hzero : 0 = s'.heap.heap_end := htiled.seg
      exact absurd hzero (Nat.succ_ne_zero _).symm
    | [x], htiled, _, _ => rw [← htiled.seg.1]
    | x :: y :: l, _, hco, hfree =>
      have hor := (List.isChain_cons_cons.mp hco).1
      rw [hfree x (by simp), hfree y (by simp)] at hor
      exact absurd hor (by decide)
  have hzero := hfree 0 (by simp)
  have hnext : s'.heap.next 0 = h.heap_end := htiled.seg.2.2.trans hend'
  have hlfree : s'.heap.lfree = 0 := by
    rcases hs.inv.lfree with ⟨-, z, hz, huse⟩ | ⟨hmem, -⟩
    · exact absurd (huse.symm.trans (hfree z hz)) (by decide)
    · exact List.mem_singleton.mp hmem
  refine ⟨hnext, hzero, hlfree, ?_, fun size => ?_⟩
  · rw [hs.used_mem, hptrs]
    rfl
  · rw [lua_malloc_single (hnext.trans hend'.symm) hzero hlfree, hmem,
      lua_malloc_single (next_lua_system_heap_init h) (used_lua_system_heap_init h) rfl]
    rfl

theorem run_gives_back_heap60 :
    let s : Scripts := ((Scripts.start heap60).run
      [.call (.malloc 24), .call (.malloc 24), .call (.free (some 8)),
        .call (.free (some 40))]).getD (Scripts.start heap60)
    s.heap.next 0 = heap60.heap_end ∧ s.heap.used 0 = false ∧ s.heap.lfree = 0 ∧
      s.heap.used_mem = 0 ∧
      ∀ size, (s.heap.lua_malloc size).2 = (heap60.lua_system_heap_init.lua_malloc size).2 := by
  dsimp only
  have hes : (Scripts.start heap60).Orderly
      [.call (.malloc 24), .call (.malloc 24), .call (.free (some 8)), .call (.free (some 40))] := by
    decide +kernel
  have hsome : ((Scripts.start heap60).run [.call (.malloc 24), .call (.malloc 24),
      .call (.free (some 8)), .call (.free (some 40))]).isSome = true := by decide +kernel
  have hptrs : (((Scripts.start heap60).run [.call (.malloc 24), .call (.malloc 24),
      .call (.free (some 8)), .call (.free (some 40))]).getD (Scripts.start heap60)).ptrs = [] := by
    decide +kernel
  obtain ⟨s, hs⟩ := Option.isSome_iff_exists.mp hsome
  rw [hs] at hptrs ⊢
  exact run_gives_back heap60 rfl hes hs hptrs

/-! ## When a call is refused -/

/-- Where no free block lies before `lfree`, a call is refused only when none would do; the block at
the end does not where it would be filled. -/
theorem lua_malloc_none_iff {h : Heap} (hinv : Inv h blocks) (hlow : Lowest h blocks) (size : Nat) :
    (h.lua_malloc size).2 = none ↔ size = 0 ∨ ∀ z ∈ blocks, h.used z = false →
      h.next z < z + sizeofStructMem + max (rtAlign size) minSizeAligned ∨
        z + sizeofStructMem + max (rtAlign size) minSizeAligned = h.heap_end := by
  have h8 : sizeofStructMem = 8 := rfl
  have hend : h.heap_end = h.mem_size_aligned + 8 := rfl
  obtain ⟨l, hsub, hseg, hall⟩ := hinv.search_from
  unfold Heap.lua_malloc
  by_cases hzero : size = 0
  · rw [if_pos hzero]
    exact ⟨fun _ => Or.inl hzero, fun _ => rfl⟩
  rw [if_neg hzero, or_iff_right hzero]
  dsimp only
  have hle := Nat.le_max_left (rtAlign size) minSizeAligned
  generalize max (rtAlign size) minSizeAligned = want at hle ⊢
  split
  · next hlarge =>
    refine ⟨fun _ z hz _ => ?_, fun _ => rfl⟩
    have hbounds := hinv.shape.tiled.seg.bounds hz
    exact Or.inl (by omega)
  · cases hsearch : h.search want h.heap_end h.lfree with
    | none =>
      refine ⟨fun _ z hz hfree => ?_, fun _ => rfl⟩
      have hbounds := hinv.shape.tiled.seg.bounds hz
      by_cases hlt : z < h.mem_size_aligned - want
      · have hfew := search_eq_none hseg (Nat.le_add_right _ _) hsearch z
          (hall z hz (hlow z hz hfree)) hlt
        rcases hfew with huse | hfew
        · exact absurd (huse.symm.trans hfree) (by decide)
        · exact Or.inl (by omega)
      · omega
    | some x =>
      obtain ⟨hx, hfree, hfit, hlt⟩ := search_eq_some hseg hsearch
      have hbounds := hseg.bounds hx
      refine ⟨fun hnone => absurd hnone (by simp), fun hno => ?_⟩
      have hnot := hno x (hsub hx) hfree
      omega

/-- After a run in which no call cut the end of a block off. -/
theorem malloc_refused_iff (h : Heap) (hused : h.used_mem = 0) (hes : (Scripts.start h).Orderly es)
    (hgrow : (Scripts.start h).Shrinkless es) (hrun : (Scripts.start h).run es = some s) :
    ∃ blocks, Tiled sizeofStructMem s.heap.next s.heap.prev 0 blocks h.heap_end ∧
      ∀ size, (s.heap.lua_malloc size).2 = none ↔
        size = 0 ∨ ∀ z ∈ blocks, s.heap.used z = false →
          s.heap.next z < z + sizeofStructMem + max (rtAlign size) minSizeAligned ∨
            z + sizeofStructMem + max (rtAlign size) minSizeAligned = h.heap_end := by
  obtain ⟨s', blocks, hrun', hs, hend, hlow, -⟩ := run_refines (sane_start h hused) hes
  obtain rfl : s' = s := Option.some.inj (hrun'.symm.trans hrun)
  have hend' : s'.heap.heap_end = h.heap_end := hend
  have hlow' := hlow hgrow fun z _ _ => Nat.zero_le z
  rw [← hend']
  exact ⟨blocks, hs.inv.shape.tiled, lua_malloc_none_iff hs.inv hlow'⟩

theorem malloc_refused_iff_heap60 :
    let s : Scripts := ((Scripts.start heap60).run
      [.call (.malloc 12), .call (.malloc 8), .call (.free (some 8))]).getD
        (Scripts.start heap60)
    ∃ blocks, Tiled sizeofStructMem s.heap.next s.heap.prev 0 blocks heap60.heap_end ∧
      ∀ size, (s.heap.lua_malloc size).2 = none ↔
        size = 0 ∨ ∀ z ∈ blocks, s.heap.used z = false →
          s.heap.next z < z + sizeofStructMem + max (rtAlign size) minSizeAligned ∨
            z + sizeofStructMem + max (rtAlign size) minSizeAligned = heap60.heap_end := by
  dsimp only
  have hes : (Scripts.start heap60).Orderly
      [.call (.malloc 12), .call (.malloc 8), .call (.free (some 8))] := by decide +kernel
  have hgrow : (Scripts.start heap60).Shrinkless
      [.call (.malloc 12), .call (.malloc 8), .call (.free (some 8))] := by decide +kernel
  have hsome : ((Scripts.start heap60).run
      [.call (.malloc 12), .call (.malloc 8), .call (.free (some 8))]).isSome = true := by
    decide +kernel
  obtain ⟨s, hs⟩ := Option.isSome_iff_exists.mp hsome
  rw [hs]
  exact malloc_refused_iff heap60 rfl hes hgrow hs

/-- A block that was cut off before `lfree` is not found. -/
example : ((Scripts.start heap60).run [.call (.malloc 24), .call (.malloc 24),
    .call (.realloc (some 8) 4), .call (.malloc 8)]).map
      (fun s => (s.ptrs, s.heap.used 12, s.heap.next 12)) = some ([8, 40], false, 32) := by
  decide +kernel

end K64Gateway.Lua
