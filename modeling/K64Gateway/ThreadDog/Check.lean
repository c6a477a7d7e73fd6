import K64Gateway.ThreadDog.Dogs

/-
  What `threaddog_check` says over long runs.

  A dog that is reported is overdue, always (`threaddogCheck_overdue`). An overdue dog is seen while
  the counter's value is not negative and not below the dog's time; proved here is that the checks
  of a run are right exactly if one of the overdue dogs is so at every check (`checks_right_iff`).
-/

namespace K64Gateway.ThreadDog

/-! ## One check -/

theorem Dog.overTick_eq (dog : Dog) : dog.overTick = dog.overSec.val * 1000 := by
  have hlt := dog.overSec.isLt
  unfold Dog.overTick threaddogSec2tick toLong
  omega

theorem Dog.wrapFeed_wrapFeed (tick : Int) (dog : Dog) :
    (dog.wrapFeed tick).wrapFeed tick = dog.wrapFeed tick := by
  unfold Dog.wrapFeed
  by_cases h : tick < dog.tickFeed
  · simp [h]
  · simp [h]

/-- What the loop returns and what it makes of each dog. -/
structure LoopSpec (tick : Int) (l : List Slot) (list : Slot → Dog)
    (r : Option Slot × (Slot → Dog)) : Prop where
  null : r.1 = none → ∀ i ∈ l, (list i).Checked → ¬ (list i).Over tick
  dog : ∀ i, r.1 = some i → i ∈ l ∧ (list i).Checked ∧ (list i).Over tick
  kept : ∀ i, r.2 i = list i ∨ r.2 i = (list i).wrapFeed tick ∨ (r.2 i).isOver = true

/-- The loop goes on behind a dog that is not over. -/
theorem LoopSpec.cons {tick : Int} {i : Slot} {rest : List Slot} (hi : i ∉ rest)
    {list list' : Slot → Dog} (hother : ∀ j, j ≠ i → list' j = list j)
    (hself : list' i = list i ∨ list' i = (list i).wrapFeed tick)
    (hover : (list i).Checked → ¬ (list i).Over tick) {r : Option Slot × (Slot → Dog)}
    (h : LoopSpec tick rest list' r) : LoopSpec tick (i :: rest) list r where
  null hr j hj hchecked := by
    rcases List.mem_cons.mp hj with rfl | hj
    · exact hover hchecked
    · have hne : j ≠ i := fun heq => hi (heq ▸ hj)
      rw [← hother j hne] at hchecked ⊢
      exact h.null hr j hj hchecked
  dog j hj := by
    obtain ⟨hmem, hspec⟩ := h.dog j hj
    have hne : j ≠ i := fun heq => hi (heq ▸ hmem)
    rw [hother j hne] at hspec
    exact ⟨List.mem_cons_of_mem _ hmem, hspec⟩
  kept j := by
    by_cases hj : j = i
    · have hkept := h.kept j
      rw [hj] at hkept ⊢
      rcases hself with hself | hself
      · rw [hself] at hkept
        exact hkept
      · rw [hself, Dog.wrapFeed_wrapFeed] at hkept
        exact .inr (hkept.elim .inl id)
    · rw [← hother j hj]
      exact h.kept j

theorem checkLoop_spec (tick : Int) {l : List Slot} (hl : l.Nodup) (list : Slot → Dog) :
    LoopSpec tick l list (checkLoop tick l list) := by
  induction l generalizing list with
  | nil => exact ⟨fun _ _ hi => absurd hi List.not_mem_nil, nofun, fun _ => .inl rfl⟩
  | cons i rest ih =>
    obtain ⟨hi, hrest⟩ := List.nodup_cons.mp hl
    unfold checkLoop
    by_cases hchecked : (list i).Checked
    · rw [if_pos hchecked]
      by_cases hover : (list i).Over tick
      · rw [if_pos hover]
        refine ⟨nofun, fun j hj => ?_, fun j => ?_⟩
        · obtain rfl : i = j := Option.some.inj hj
          exact ⟨List.mem_cons_self, hchecked, hover⟩
        · by_cases hj : j = i
          · exact .inr (.inr (by simp [hj]))
          · exact .inl (Function.update_of_ne hj _ _)
      · rw [if_neg hover]
        exact (ih hrest _).cons hi (fun j hj => Function.update_of_ne hj _ _)
          (.inr (Function.update_self _ _ _)) fun _ => hover
    · rw [if_neg hchecked]
      exact (ih hrest list).cons hi (fun _ _ => rfl) (.inl rfl) fun h => absurd h hchecked

theorem threaddogCheck_spec (s : Dogs) :
    LoopSpec (threaddogTick s.now) (List.finRange threadDogNum) s.list
      ((threaddogCheck s).1, (threaddogCheck s).2.list) :=
  checkLoop_spec _ (List.nodup_finRange _) s.list

/-! ## The feeds -/

/-- A dog's feed is the tick of its last feed, or 0 since a check at a time `t` that saw the
    counter below it. -/
def FeedOk (now fed : Nat) (dog : Dog) : Prop :=
  fed ≤ now ∧ (dog.tickFeed = toLong fed ∨
    dog.tickFeed = 0 ∧ ∃ t : Nat, fed ≤ t ∧ t ≤ now ∧ toLong t < toLong fed)

/-- All dogs that are not over are so, and none of them is dead. -/
structure Dogs.Ok (s : Dogs) : Prop where
  feed : ∀ i, (s.list i).use = true → (s.list i).isOver = false → FeedOk s.now (s.fed i) (s.list i)
  alive : ∀ i, (s.list i).use = true → (s.list i).isOver = false → (s.list i).state ≠ .die

theorem Dogs.Ok.live {s : Dogs} (h : s.Ok) (i : Slot) :
    (s.list i).Checked ↔ (s.list i).Live := by
  constructor
  · intro ⟨huse, hover, hsuspend, hexit⟩
    refine ⟨huse, hover, ?_⟩
    have hdie := h.alive i huse hover
    cases hstate : (s.list i).state with
    | running => rfl
    | suspend => exact absurd hstate hsuspend
    | die => exact absurd hstate hdie
    | exit => exact absurd hstate hexit
  · intro ⟨huse, hover, hstate⟩
    exact ⟨huse, hover, by simp [hstate], by simp [hstate]⟩

/-- A dog that is found over has not been fed for more than its time. -/
theorem FeedOk.overdue {now fed : Nat} {dog : Dog} (h : FeedOk now fed dog)
    (hover : dog.Over (threaddogTick now)) : (fed : Int) + dog.overSec.val * 1000 < now := by
  have hlt := dog.overSec.isLt
  obtain ⟨htick, hage⟩ := hover
  rw [dog.overTick_eq] at htick hage
  unfold Dog.wrapFeed at hage
  unfold threaddogTick toLong at htick hage
  dsimp only at hage
  obtain ⟨hle, hfeed | ⟨hfeed, t, hfed, hnow, hwrap⟩⟩ := h
  · unfold toLong at hfeed
    rw [hfeed] at hage
    split at hage <;> omega
  · unfold toLong at hwrap
    rw [hfeed] at hage
    split at hage <;> omega

/-- An overdue dog is found over while the counter is in range. -/
theorem FeedOk.over {now fed : Nat} {dog : Dog} (h : FeedOk now fed dog)
    (hoverdue : (fed : Int) + dog.overSec.val * 1000 < now)
    (htick : (dog.overSec.val * 1000 : Int) ≤ threaddogTick now)
    (hage : now < fed + 2147483648) : dog.Over (threaddogTick now) := by
  have hlt := dog.overSec.isLt
  unfold Dog.Over
  rw [dog.overTick_eq]
  refine ⟨htick, ?_⟩
  unfold Dog.wrapFeed
  unfold threaddogTick toLong at *
  dsimp only
  obtain ⟨hle, hfeed | ⟨hfeed, t, hfed, hnow, hwrap⟩⟩ := h
  · unfold toLong at hfeed
    rw [hfeed]
    split <;> omega
  · unfold toLong at hwrap
    omega

/-! ## Every step -/

theorem FeedOk.mono {now now' fed : Nat} (hnow : now ≤ now') {dog : Dog} (h : FeedOk now fed dog) :
    FeedOk now' fed dog := by
  obtain ⟨hle, hfeed | ⟨hfeed, t, hfed, ht, hwrap⟩⟩ := h
  · exact ⟨hle.trans hnow, .inl hfeed⟩
  · exact ⟨hle.trans hnow, .inr ⟨hfeed, t, hfed, ht.trans hnow, hwrap⟩⟩

/-- A check that sees the counter below the feed. -/
theorem FeedOk.wrapFeed {now fed : Nat} {dog : Dog} (h : FeedOk now fed dog) :
    FeedOk now fed (dog.wrapFeed (threaddogTick now)) := by
  unfold Dog.wrapFeed
  by_cases hlt : threaddogTick now < dog.tickFeed
  · rw [if_pos hlt]
    refine ⟨h.1, .inr ⟨rfl, ?_⟩⟩
    rcases h.2 with hfeed | ⟨-, hwrap⟩
    · exact ⟨now, h.1, le_rfl, hlt.trans_eq hfeed⟩
    · exact hwrap
  · rw [if_neg hlt]
    exact h

theorem Dogs.ok_init (now : Nat) : (Dogs.init now).Ok where
  feed _ huse := absurd huse Bool.false_ne_true
  alive _ huse := absurd huse Bool.false_ne_true

theorem Dogs.Ok.feedDog {s : Dogs} (h : s.Ok) (i : Slot) {dog : Dog} (hstate : dog.state ≠ .die) :
    (s.feed i dog).Ok := by
  unfold Dogs.feed
  constructor <;> intro j <;> dsimp only
  · by_cases hj : j = i
    · rw [hj, Function.update_self, Function.update_self]
      exact fun _ _ => ⟨le_rfl, .inl rfl⟩
    · rw [Function.update_of_ne hj, Function.update_of_ne hj]
      exact h.feed j
  · by_cases hj : j = i
    · rw [hj, Function.update_self]
      exact fun _ _ => hstate
    · rw [Function.update_of_ne hj]
      exact h.alive j

theorem Update.state_ne_die (u : Update) : u.state ≠ .die := by
  cases u <;> exact DogState.noConfusion

theorem Dogs.Ok.step {s : Dogs} (h : s.Ok) (e : Event) : (ThreadDog.step s e).Ok := by
  cases e with
  | register overSec =>
    show (threaddogRegister overSec s).Ok
    unfold threaddogRegister
    split
    · exact h.feedDog _ DogState.noConfusion
    · exact h
  | unregister i =>
    show (threaddogUnregister i s).Ok
    unfold threaddogUnregister
    split
    · constructor <;> intro j <;> dsimp only <;> by_cases hj : j = i
      · rw [hj, Function.update_self]
        exact fun huse => nomatch huse
      · rw [Function.update_of_ne hj]
        exact h.feed j
      · rw [hj, Function.update_self]
        exact fun huse => nomatch huse
      · rw [Function.update_of_ne hj]
        exact h.alive j
    · exact h
  | update i u =>
    show (threaddogUpdate i u.state s).Ok
    unfold threaddogUpdate
    split
    · exact h.feedDog _ u.state_ne_die
    · exact h
  | check =>
    have hkept := (threaddogCheck_spec s).kept
    constructor <;> intro i huse hover <;> rcases hkept i with heq | heq | heq
    · rw [show (ThreadDog.step s .check).list i = s.list i from heq] at huse hover ⊢
      exact h.feed i huse hover
    · rw [show (ThreadDog.step s .check).list i = _ from heq] at huse hover ⊢
      exact (h.feed i huse hover).wrapFeed
    · exact absurd (heq.symm.trans hover) Bool.noConfusion
    · rw [show (ThreadDog.step s .check).list i = s.list i from heq] at huse hover ⊢
      exact h.alive i huse hover
    · rw [show (ThreadDog.step s .check).list i = _ from heq] at huse hover ⊢
      exact h.alive i huse hover
    · exact absurd (heq.symm.trans hover) Bool.noConfusion
  | advance ticks =>
    exact ⟨fun i huse hover => (h.feed i huse hover).mono (Nat.le_add_right _ _), h.alive⟩

/-- A dog that is reported is overdue. -/
theorem threaddogCheck_overdue {s : Dogs} (h : s.Ok) {i : Slot}
    (hret : (threaddogCheck s).1 = some i) : Overdue s i := by
  obtain ⟨-, hchecked, hover⟩ := (threaddogCheck_spec s).dog i hret
  have hlive := (h.live i).mp hchecked
  exact ⟨hlive, (h.feed i hlive.1 hlive.2.1).overdue hover⟩

/-- An overdue dog in range is enough for a check to be right. -/
theorem checkRight_of_inRange {s : Dogs} (h : s.Ok) (hrange : InRange s) : CheckRight s := by
  refine ⟨fun hret i hi => ?_, fun i => threaddogCheck_overdue h⟩
  obtain ⟨j, ⟨hlive, hage⟩, htick, hfed⟩ := hrange ⟨i, hi⟩
  exact (threaddogCheck_spec s).null hret j (List.mem_finRange j) ((h.live j).mpr hlive)
    ((h.feed j hlive.1 hlive.2.1).over hage htick hfed)

/-! ## The negative half of the counter -/

/-- Between the checks: no window of `2 ^ 20` negative ticks lies behind the dog's time, and the
    last check was not in it either. -/
structure Awaited (last now fed : Nat) (dog : Dog) : Prop where
  window : ∀ t : Nat, fed + dog.overSec.val * 1000 < t → t + 1048576 ≤ now →
    ¬ (toLong t < 0 ∧ toLong (t + 1048576) < 0)
  check : toLong last < 0 → last ≤ fed + dog.overSec.val * 1000

/-- The dogs that are running, when every check so far was right. -/
structure Watched (last : Nat) (s : Dogs) : Prop where
  ok : s.Ok
  last_le : last ≤ s.now
  dogs : ∀ i, (s.list i).Live → Awaited last s.now (s.fed i) (s.list i)

theorem awaited_fed {last now : Nat} (h : last ≤ now) (dog : Dog) : Awaited last now now dog :=
  ⟨fun t ht hnow => by omega, fun _ => by omega⟩

theorem Awaited.advance {last now now' fed : Nat} {dog : Dog} (h : Awaited last now fed dog)
    (hlast : last ≤ now) (hnow : now' ≤ last + 1048576) : Awaited last now' fed dog := by
  refine ⟨fun t ht htnow hneg => ?_, h.check⟩
  by_cases hold : t + 1048576 ≤ now
  · exact h.window t ht hold hneg
  · -- The last check lies in the window, so it was negative too.
    have hcheck := h.check
    unfold toLong at hneg hcheck
    omega

theorem Watched.feedDog {last : Nat} {s : Dogs} (h : Watched last s) (i : Slot) {dog : Dog}
    (hstate : dog.state ≠ .die) : Watched last (s.feed i dog) where
  ok := h.ok.feedDog i hstate
  last_le := h.last_le
  dogs j := by
    unfold Dogs.feed
    dsimp only
    by_cases hj : j = i
    · rw [hj, Function.update_self, Function.update_self]
      exact fun _ => awaited_fed h.last_le _
    · rw [Function.update_of_ne hj, Function.update_of_ne hj]
      exact h.dogs j

/-- A negative tick finds no dog over. -/
theorem threaddogCheck_negative {s : Dogs} (h : threaddogTick s.now < 0) :
    (threaddogCheck s).1 = none := by
  cases hret : (threaddogCheck s).1 with
  | none => rfl
  | some i =>
    have htick := ((threaddogCheck_spec s).dog i hret).2.2.1
    rw [Dog.overTick_eq] at htick
    omega

theorem Watched.check {last : Nat} {s : Dogs} (h : Watched last s) (hright : CheckRight s) :
    Watched s.now (step s .check) where
  ok := h.ok.step .check
  last_le := le_rfl
  dogs i hlive := by
    have hsame : (s.list i).Live ∧ ((step s .check).list i).overSec = (s.list i).overSec := by
      rcases (threaddogCheck_spec s).kept i with heq | heq | heq
      · rw [show (step s .check).list i = s.list i from heq] at hlive ⊢
        exact ⟨hlive, rfl⟩
      · rw [show (step s .check).list i = _ from heq] at hlive ⊢
        exact ⟨hlive, rfl⟩
      · exact absurd (heq.symm.trans hlive.2.1) Bool.noConfusion
    have hbefore := h.dogs i hsame.1
    constructor
    · rw [hsame.2]
      exact hbefore.window
    · rw [hsame.2]
      intro hneg
      have hnot := hright.null (threaddogCheck_negative hneg) i
      have hfed : (step s .check).fed i = s.fed i := rfl
      by_contra hlate
      exact hnot ⟨hsame.1, by omega⟩

/-- A dog that is found over in time after every negative half has been fed in range. -/
theorem FeedOk.inRange {last now fed : Nat} {dog : Dog} (h : FeedOk now fed dog)
    (hover : dog.Over (threaddogTick now)) (hawaited : Awaited last now fed dog) :
    now < fed + 2147483648 := by
  have hlt := dog.overSec.isLt
  obtain ⟨htick, hage⟩ := hover
  rw [dog.overTick_eq] at htick hage
  obtain ⟨r, hr⟩ : ∃ r : Nat, threaddogTick now = r := ⟨_, (Int.toNat_of_nonneg (by omega)).symm⟩
  by_contra hlong
  -- The window that ends just before the counter became positive again.
  have hwindow := hawaited.window (now - r - 1048577)
  unfold Dog.wrapFeed at hage
  dsimp only at hage
  rw [hr] at htick hage
  unfold threaddogTick toLong at hr
  unfold toLong at hage hwindow
  obtain ⟨hle, hfeed | ⟨hfeed, t, hfed, hnow, hwrap⟩⟩ := h
  · unfold toLong at hfeed
    rw [hfeed] at hage
    split at hage <;> omega
  · unfold toLong at hwrap
    rw [hfeed] at hage
    split at hage <;> omega

/-! ## Every run -/

/-- Every step but a check keeps the dogs watched. -/
theorem Watched.step {last : Nat} {s : Dogs} (h : Watched last s) {e : Event}
    (hcheck : e ≠ .check) (hsoon : (ThreadDog.step s e).now ≤ last + 1048576) :
    Watched last (ThreadDog.step s e) := by
  cases e with
  | register overSec =>
    show Watched last (threaddogRegister overSec s)
    unfold threaddogRegister
    split
    · exact h.feedDog _ DogState.noConfusion
    · exact h
  | unregister i =>
    refine ⟨h.ok.step _, ?_, fun j => ?_⟩ <;>
      simp only [ThreadDog.step, threaddogUnregister] <;> split
    · exact h.last_le
    · exact h.last_le
    · dsimp only
      by_cases hj : j = i
      · rw [hj, Function.update_self]
        exact fun hlive => absurd hlive.1 Bool.false_ne_true
      · rw [Function.update_of_ne hj]
        exact h.dogs j
    · exact h.dogs j
  | update i u =>
    show Watched last (threaddogUpdate i u.state s)
    unfold threaddogUpdate
    split
    · exact h.feedDog _ u.state_ne_die
    · exact h
  | check => exact absurd rfl hcheck
  | advance ticks =>
    exact ⟨h.ok.step _, h.last_le.trans (Nat.le_add_right _ _), fun i hlive =>
      (h.dogs i hlive).advance h.last_le hsoon⟩

/-- In range, an overdue dog is found: one that the right check reports. -/
theorem Watched.inRange {last : Nat} {s : Dogs} (h : Watched last s) (hright : CheckRight s) :
    InRange s := by
  intro ⟨i, hi⟩
  cases hret : (threaddogCheck s).1 with
  | none => exact absurd hi (hright.null hret i)
  | some j =>
    obtain ⟨-, hchecked, hover⟩ := (threaddogCheck_spec s).dog j hret
    have hlive := (h.ok.live j).mp hchecked
    refine ⟨j, threaddogCheck_overdue h.ok hret, ?_,
      (h.ok.feed j hlive.1 hlive.2.1).inRange hover (h.dogs j hlive)⟩
    rw [← Dog.overTick_eq]
    exact hover.1

theorem atChecks_right_of_inRange {run : List Event} {s : Dogs} (h : s.Ok)
    (hrange : AtChecks InRange s run) : AtChecks CheckRight s run := by
  induction run generalizing s with
  | nil => trivial
  | cons e run ih =>
    cases e with
    | check => exact ⟨checkRight_of_inRange h hrange.1, ih (h.step _) hrange.2⟩
    | register overSec => exact ih (h.step _) hrange
    | unregister i => exact ih (h.step _) hrange
    | update i u => exact ih (h.step _) hrange
    | advance ticks => exact ih (h.step _) hrange

/-- The clock stands still but for `advance`. -/
theorem step_now (s : Dogs) (e : Event) :
    (step s e).now = match e with
      | .advance ticks => s.now + ticks
      | _ => s.now := by
  cases e with
  | register overSec =>
    show (threaddogRegister overSec s).now = s.now
    unfold threaddogRegister
    split <;> rfl
  | unregister i =>
    show (threaddogUnregister i s).now = s.now
    unfold threaddogUnregister
    split <;> rfl
  | update i u =>
    show (threaddogUpdate i u.state s).now = s.now
    unfold threaddogUpdate
    split <;> rfl
  | check => rfl
  | advance ticks => rfl

theorem atChecks_inRange_of_right {run : List Event} {last : Nat} {s : Dogs} (h : Watched last s)
    (hsoon : s.now ≤ last + 1048576) (hfreq : Frequent last s run)
    (hright : AtChecks CheckRight s run) : AtChecks InRange s run := by
  induction run generalizing last s with
  | nil => trivial
  | cons e run ih =>
    -- A step that leaves the clock and is no check.
    have hquiet : e ≠ .check → (step s e).now = s.now → Frequent last (step s e) run →
        AtChecks CheckRight (step s e) run → AtChecks InRange (step s e) run :=
      fun hne hnow hf hr => ih (h.step hne (hnow ▸ hsoon)) (hnow ▸ hsoon) hf hr
    cases e with
    | check =>
      exact ⟨h.inRange hright.1, ih (h.check hright.1) (Nat.le_add_right _ _) hfreq hright.2⟩
    | advance ticks => exact ih (h.step Event.noConfusion hfreq.1) hfreq.1 hfreq.2 hright
    | register overSec => exact hquiet Event.noConfusion (step_now s _) hfreq hright
    | unregister i => exact hquiet Event.noConfusion (step_now s _) hfreq hright
    | update i u => exact hquiet Event.noConfusion (step_now s _) hfreq hright

theorem checks_right_iff (now : Nat) (run : List Event) (hfreq : Frequent now (.init now) run) :
    AtChecks CheckRight (.init now) run ↔ AtChecks InRange (.init now) run := by
  have hwatched : Watched now (.init now) :=
    ⟨Dogs.ok_init now, le_rfl, fun _ hlive => absurd hlive.1 Bool.false_ne_true⟩
  exact ⟨atChecks_inRange_of_right hwatched (Nat.le_add_right _ _) hfreq,
    atChecks_right_of_inRange (Dogs.ok_init now)⟩

/-- One second after boot a thread that was never fed is reported. -/
theorem first_checks_right :
    AtChecks CheckRight (.init 0) [.register 1, .advance 1001, .check] :=
  (checks_right_iff 0 [.register 1, .advance 1001, .check] ⟨by decide, trivial⟩).mpr
    ⟨fun _ => ⟨0, ⟨⟨rfl, rfl, rfl⟩, by decide⟩, by decide, by decide⟩, trivial⟩

/-- Checks without a dog, `n` times. -/
def idle : Nat → List Event → List Event
  | 0, run => run
  | n + 1, run => .advance 1048576 :: .check :: idle n run

theorem checkLoop_init (tick : Int) (now : Nat) (l : List Slot) :
    checkLoop tick l (Dogs.init now).list = (none, (Dogs.init now).list) := by
  induction l with
  | nil => rfl
  | cons i rest ih =>
    unfold checkLoop
    rw [if_neg fun h => absurd h.1 Bool.false_ne_true]
    exact ih

theorem step_check_init (now : Nat) : step (.init now) .check = .init now := by
  show (threaddogCheck (Dogs.init now)).2 = _
  unfold threaddogCheck
  rw [checkLoop_init]

theorem frequent_idle (n now : Nat) {run : List Event}
    (h : Frequent (now + n * 1048576) (.init (now + n * 1048576)) run) :
    Frequent now (.init now) (idle n run) := by
  induction n generalizing now with
  | zero => simpa [idle] using h
  | succ n ih =>
    refine ⟨le_rfl, ?_⟩
    show Frequent (now + 1048576) (step (.init (now + 1048576)) .check) (idle n run)
    rw [step_check_init]
    refine ih (now + 1048576) ?_
    rwa [show now + 1048576 + n * 1048576 = now + (n + 1) * 1048576 by omega]

theorem atChecks_idle {p : Dogs → Prop} (n now : Nat) {run : List Event}
    (h : AtChecks p (.init now) (idle n run)) :
    AtChecks p (.init (now + n * 1048576)) run := by
  induction n generalizing now with
  | zero => simpa [idle] using h
  | succ n ih =>
    have hnext : AtChecks p (step (.init (now + 1048576)) .check) (idle n run) := h.2
    rw [step_check_init] at hnext
    have hrun := ih (now + 1048576) hnext
    rwa [show now + 1048576 + n * 1048576 = now + (n + 1) * 1048576 by omega] at hrun

/-- After 25 days the counter is negative, and a thread that is never fed is not reported. -/
theorem negative_not_right :
    ¬ ∀ now run, Frequent now (.init now) run → AtChecks CheckRight (.init now) run := by
  intro h
  have hfreq : Frequent 0 (.init 0) (idle 2048 [.register 1, .advance 1001, .check]) :=
    frequent_idle 2048 0 ⟨by decide, trivial⟩
  have hright := (atChecks_idle 2048 0 (h 0 _ hfreq)).1
  have hnull : (threaddogCheck (step (step (.init 2147483648) (.register 1)) (.advance 1001))).1 =
      none := threaddogCheck_negative (by decide)
  exact hright.null hnull 0 ⟨⟨rfl, rfl, rfl⟩, by decide⟩

end K64Gateway.ThreadDog
