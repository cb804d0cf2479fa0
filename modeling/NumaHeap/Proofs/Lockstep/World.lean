import NumaHeap.Proofs.Lockstep.Moves
import NumaHeap.Proofs.Lockstep.Rounds

/-!
What holds in every machine of a run. Between two passages of the barrier a thread either has its
task of this generation before it, or has done it and has not passed again, or is lost. So the
machine is somewhere inside one round of the sequential run, and it gets to the next round when the
last thread arrives.
-/

namespace NumaHeap.Lockstep

/-! ## Lists of threads -/

variable {α β : Type}

theorem exists_of_forall₂ {r : α → β → Prop} {xs : List α} {ys : List β}
    (all : List.Forall₂ r xs ys) {index : Nat} {y : β} (found : ys[index]? = some y) :
    ∃ x, xs[index]? = some x ∧ r x y := by
  induction all generalizing index with
  | nil => simp at found
  | cons one rest ih =>
    cases index with
    | zero =>
      obtain rfl := Option.some.inj found
      exact ⟨_, rfl, one⟩
    | succ index => exact ih found

theorem forall₂_set {r : α → β → Prop} {xs : List α} {ys : List β}
    (all : List.Forall₂ r xs ys) {index : Nat} {x : α} {y : β} (found : xs[index]? = some x) (one : r x y) :
    List.Forall₂ r xs (ys.set index y) := by
  induction all generalizing index with
  | nil => simp at found
  | cons first rest ih =>
    cases index with
    | zero =>
      obtain rfl := Option.some.inj found
      exact .cons one rest
    | succ index => exact .cons first (ih found)

theorem sum_zipWith_set {f : α → β → Int} {xs : List α} {ys : List β} {index : Nat} {x : α}
    {y : β} (left : xs[index]? = some x) (right : ys[index]? = some y) (y' : β) :
    (List.zipWith f xs (ys.set index y')).sum + f x y = (List.zipWith f xs ys).sum + f x y' := by
  induction xs generalizing ys index with
  | nil => simp at left
  | cons first xs ih =>
    obtain - | ⟨second, ys⟩ := ys
    · simp at right
    cases index with
    | zero =>
      obtain rfl := Option.some.inj left
      obtain rfl := Option.some.inj right
      simp only [List.set_cons_zero, List.zipWith_cons_cons, List.sum_cons]
      omega
    | succ index =>
      have tail := @ih ys index left right
      simp only [List.set_cons_succ, List.zipWith_cons_cons, List.sum_cons]
      omega

theorem sum_zipWith_eq_zero {f : α → β → Int} {xs : List α} {ys : List β}
    (none : ∀ x, ∀ y ∈ ys, f x y = 0) : (List.zipWith f xs ys).sum = 0 := by
  induction xs generalizing ys with
  | nil => rfl
  | cons x xs ih =>
    cases ys with
    | nil => rfl
    | cons y ys =>
      have head := none x y List.mem_cons_self
      have tail := ih fun x y member => none x y (List.mem_cons_of_mem _ member)
      rw [List.zipWith_cons_cons, List.sum_cons, head, tail, add_zero]

theorem map_set_eq {γ : Type} {f : β → γ} {ys : List β} {index : Nat} {y y' : β}
    (found : ys[index]? = some y) (same : f y' = f y) : (ys.set index y').map f = ys.map f := by
  induction ys generalizing index with
  | nil => rfl
  | cons first ys ih =>
    cases index with
    | zero =>
      obtain rfl := Option.some.inj found
      simp [same]
    | succ index => simpa using ih found

theorem countP_set {q : β → Bool} {ys : List β} {index : Nat} {y : β}
    (found : ys[index]? = some y) (y' : β) :
    (ys.set index y').countP q + (q y).toNat = ys.countP q + (q y').toNat := by
  induction ys generalizing index with
  | nil => simp at found
  | cons first ys ih =>
    cases index with
    | zero =>
      obtain rfl := Option.some.inj found
      simp only [List.set_cons_zero, List.countP_cons]
      cases q first <;> cases q y' <;> simp
    | succ index =>
      have tail := @ih index found
      simp only [List.set_cons_succ, List.countP_cons]
      omega

/-! ## Where a thread stands -/

namespace Phase

/-- Whether a thread has done its task of a generation and has not passed the barrier again. -/
def through (generation : Nat) : Phase → Bool
  | .preparing index => index == generation
  | .arriving index _ => index == generation
  | .waiting _ _ since => since == generation
  | _ => false

/-- Whether a thread is counted among those that have arrived in a generation. -/
def waits (generation : Nat) : Phase → Bool
  | .waiting _ _ since => since == generation
  | _ => false

/-- Whether a thread has panicked, and maybe not yet poisoned the barrier. -/
def isLost : Phase → Bool
  | .unwinding => true
  | .panicked => true
  | _ => false

@[simp] theorem waits_waiting (generation index since : Nat) (prepared : Int) :
    (Phase.waiting index prepared since).waits generation = (since == generation) := rfl

@[simp] theorem through_waiting (generation index since : Nat) (prepared : Int) :
    (Phase.waiting index prepared since).through generation = (since == generation) := rfl

theorem through_of_waits {phase : Phase} {generation : Nat}
    (blocked : phase.waits generation = true) : phase.through generation = true := by
  cases phase <;> simp_all [waits, through]

section PastBarrier

variable (p : Program) (generation index : Nat) (prepared : Int)

@[simp] theorem through_pastBarrier : (p.pastBarrier index prepared).through generation = false := by
  unfold Program.pastBarrier
  split <;> rfl

@[simp] theorem waits_pastBarrier : (p.pastBarrier index prepared).waits generation = false := by
  unfold Program.pastBarrier
  split <;> rfl

@[simp] theorem isLost_pastBarrier : (p.pastBarrier index prepared).isLost = false := by
  unfold Program.pastBarrier
  split <;> rfl

end PastBarrier

theorem isLost_of_panicked {phase : Phase} (panicked : phase = .panicked) :
    phase.isLost = true := by
  rw [panicked]
  rfl

end Phase

/-- Where a thread can be in a generation that it entered with a local state, and what it then
carries with it. -/
inductive Stands (p : Program) (generation : Nat) (shared : Int) (l : Local) : Thread → Prop where
  | released {index : Nat} (entered : generation = index + 1) :
      Stands p generation shared l ⟨.waiting index ((p.task generation).prepare l) index, l⟩
  | running {index : Nat} (entered : generation = index + 1) (inside : index < p.length) :
      Stands p generation shared l ⟨.running index ((p.task generation).prepare l), l⟩
  | finished (last : generation = p.length + 1) : Stands p generation shared l ⟨.finished, l⟩
  | preparing {l' : Local} (within : generation ≤ p.length)
      (done : (p.task generation).after shared l = some l') :
      Stands p generation shared l ⟨.preparing generation, l'⟩
  | arriving {l' : Local} (within : generation ≤ p.length)
      (done : (p.task generation).after shared l = some l') :
      Stands p generation shared l
        ⟨.arriving generation ((p.task (generation + 1)).prepare l'), l'⟩
  | waiting {l' : Local} (within : generation ≤ p.length)
      (done : (p.task generation).after shared l = some l') :
      Stands p generation shared l
        ⟨.waiting generation ((p.task (generation + 1)).prepare l') generation, l'⟩
  | unwinding (l' : Local) : Stands p generation shared l ⟨.unwinding, l'⟩
  | panicked (l' : Local) : Stands p generation shared l ⟨.panicked, l'⟩

/-- What a thread has added to the shared integer in a generation. -/
def gained (p : Program) (generation : Nat) (l : Local) (t : Thread) : Int :=
  if t.phase.through generation then (p.task generation).gain l else 0

namespace Stands

variable {p : Program} {generation : Nat} {shared : Int} {l : Local} {t : Thread}

theorem after_of_through (stands : Stands p generation shared l t)
    (through : t.phase.through generation = true) :
    (p.task generation).after shared l = some t.state := by
  cases stands with
  | preparing within done => exact done
  | arriving within done => exact done
  | waiting within done => exact done
  | released entered => simp [Phase.through] at through; omega
  | _ => simp [Phase.through] at through

theorem within_of_through (stands : Stands p generation shared l t)
    (through : t.phase.through generation = true) : generation ≤ p.length := by
  cases stands with
  | preparing within done => exact within
  | arriving within done => exact within
  | waiting within done => exact within
  | released entered => simp [Phase.through] at through; omega
  | _ => simp [Phase.through] at through

/-- A thread that waits is ready for the next generation. -/
theorem released_of_waits (stands : Stands p generation shared l t)
    (blocked : t.phase.waits generation = true) (shared' : Int) :
    Stands p (generation + 1) shared' t.state t := by
  cases stands with
  | waiting within done => exact .released rfl
  | released entered => simp [Phase.waits] at blocked; omega
  | _ => simp [Phase.waits] at blocked

theorem pastBarrier {index : Nat} (entered : generation = index + 1)
    (within : generation ≤ p.length + 1) :
    Stands p generation shared l
      ⟨p.pastBarrier index ((p.task generation).prepare l), l⟩ := by
  unfold Program.pastBarrier
  split
  case isTrue inside => exact .running entered inside
  case isFalse outside => exact .finished (by omega)

theorem generation_of_running (stands : Stands p generation shared l t) {index : Nat}
    {prepared : Int} (running : t.phase = .running index prepared) : generation = index + 1 := by
  cases stands with
  | running entered inside =>
    obtain ⟨rfl, -⟩ := Phase.running.inj running
    exact entered
  | _ => cases running

theorem generation_of_finished (stands : Stands p generation shared l t)
    (finished : t.phase = .finished) : generation = p.length + 1 := by
  cases stands with
  | finished last => exact last
  | _ => cases finished

end Stands

section AllWait

variable {p : Program} {generation : Nat} {shared : Int} {ls : List Local} {ts : List Thread}

theorem done_of_all_wait (stands : List.Forall₂ (Stands p generation shared) ls ts)
    (waits : ∀ t ∈ ts, t.phase.waits generation = true) :
    List.Forall₂ (fun l l' => (p.task generation).after shared l = some l') ls
      (ts.map (·.state)) := by
  induction stands with
  | nil => exact .nil
  | cons one rest ih =>
    obtain ⟨first, waits⟩ := List.forall_mem_cons.mp waits
    exact .cons (one.after_of_through (Phase.through_of_waits first)) (ih waits)

theorem released_of_all_wait (stands : List.Forall₂ (Stands p generation shared) ls ts)
    (waits : ∀ t ∈ ts, t.phase.waits generation = true) (shared' : Int) :
    List.Forall₂ (Stands p (generation + 1) shared') (ts.map (·.state)) ts := by
  induction stands with
  | nil => exact .nil
  | cons one rest ih =>
    obtain ⟨first, waits⟩ := List.forall_mem_cons.mp waits
    exact .cons (one.released_of_waits first shared') (ih waits)

theorem gained_of_all_wait (stands : List.Forall₂ (Stands p generation shared) ls ts)
    (waits : ∀ t ∈ ts, t.phase.waits generation = true) :
    (List.zipWith (gained p generation) ls ts).sum = (ls.map (p.task generation).gain).sum := by
  induction stands with
  | nil => rfl
  | cons one rest ih =>
    obtain ⟨first, waits⟩ := List.forall_mem_cons.mp waits
    simp [gained, Phase.through_of_waits first, ih waits]

/-- Nobody who is let go has panicked or has done anything in the generation that begins. -/
theorem fresh_of_all_wait (waits : ∀ t ∈ ts, t.phase.waits generation = true) {index position : Nat}
    {prepared : Int} {l : Local} {t : Thread}
    (member : t ∈ ts.set position ⟨p.pastBarrier index prepared, l⟩) :
    t.phase.isLost = false ∧ t.phase.through (generation + 1) = false := by
  obtain member | rfl := List.mem_or_eq_of_mem_set member
  · have blocked := waits t member
    cases phase : t.phase <;> simp_all [Phase.waits, Phase.isLost, Phase.through]
  · simp

end AllWait

/-! ## The machine inside a round -/

/-- A machine inside the round of the sequential run that began with `now`. -/
structure Tracked (p : Program) (first now : Int × List Local) (m : Machine) : Prop where
  reached : rounds (p.agenda.take m.checkpoint.generation) first.1 first.2 = some now
  within : m.checkpoint.generation ≤ p.length + 1
  crew : m.checkpoint.participants = m.threads.length
  stands : List.Forall₂ (Stands p m.checkpoint.generation now.1) now.2 m.threads
  tally : m.shared = now.1 +
    (List.zipWith (gained p m.checkpoint.generation) now.2 m.threads).sum
  queue : m.checkpoint.poisoned = false →
    m.checkpoint.arrived = m.threads.countP (·.phase.waits m.checkpoint.generation)
  short : m.threads ≠ [] → m.checkpoint.arrived < m.checkpoint.participants
  doomed : (∃ t ∈ m.threads, t.phase.isLost = true) ∨ m.checkpoint.poisoned = true →
    ∃ l ∈ now.2, (p.task m.checkpoint.generation).after now.1 l = none
  alarmed : ∀ t ∈ m.threads, t.phase = .panicked → m.checkpoint.poisoned = true

namespace Tracked

variable {p : Program} {first now : Int × List Local} {m next : Machine} {index : Nat}

theorem start (p : Program) (shared : Int) (locals : List Local) :
    Tracked p (shared, locals) (shared, locals) (p.start shared locals) where
  reached := rfl
  within := Nat.zero_le _
  crew := by simp [Program.start]
  stands := by
    have fresh (l : Local) : Stands p 0 shared l ⟨.preparing 0, l⟩ :=
      .preparing (Nat.zero_le _) rfl
    simp [Program.start, List.forall₂_map_right_iff, List.forall₂_same, fresh]
  tally := by
    have nothing : ∀ l t, gained p 0 l t = 0 := by simp [gained]
    simp [Program.start, sum_zipWith_eq_zero fun l t _ => nothing l t]
  queue := by simp [Program.start, List.countP_map, Function.comp_def, Phase.waits]
  short := by simp [Program.start, List.length_pos_iff]
  doomed := by simp [Program.start, Phase.isLost]
  alarmed := by simp [Program.start]

/-- A task sees the shared integer as the round found it, if it looks at it at all. -/
theorem after_shared (tracked : Tracked p first now m) (l : Local) :
    (p.task m.checkpoint.generation).after m.shared l =
      (p.task m.checkpoint.generation).after now.1 l := by
  apply Step.after_congr
  intro observes
  have nothing : ∀ l t, gained p m.checkpoint.generation l t = 0 := by simp [gained, observes]
  rw [tracked.tally, sum_zipWith_eq_zero fun l t _ => nothing l t, add_zero]

/-- A move of one thread that stays inside the round. -/
theorem stays (tracked : Tracked p first now m) {t t' : Thread} {l : Local} {shared : Int}
    {c : Checkpoint} (found : m.threads[index]? = some t) (entered : now.2[index]? = some l)
    (stands : Stands p m.checkpoint.generation now.1 l t')
    (generation : c.generation = m.checkpoint.generation)
    (crew : c.participants = m.checkpoint.participants)
    (tally : shared + gained p m.checkpoint.generation l t =
      m.shared + gained p m.checkpoint.generation l t')
    (queue : c.poisoned = false → m.checkpoint.poisoned = false ∧
      c.arrived + (t.phase.waits m.checkpoint.generation).toNat =
        m.checkpoint.arrived + (t'.phase.waits m.checkpoint.generation).toNat)
    (short : c.arrived < c.participants)
    (doomed : t'.phase.isLost = true ∨ c.poisoned = true →
      ∃ l ∈ now.2, (p.task m.checkpoint.generation).after now.1 l = none)
    (alarmed : c.poisoned = false → m.checkpoint.poisoned = false ∧ t'.phase ≠ .panicked) :
    Tracked p first now ⟨shared, c, m.threads.set index t'⟩ where
  reached := by simpa only [generation] using tracked.reached
  within := by simpa only [generation] using tracked.within
  crew := by rw [crew, tracked.crew, List.length_set]
  stands := by
    simp only [generation]
    exact forall₂_set tracked.stands entered stands
  tally := by
    have total := sum_zipWith_set (f := gained p m.checkpoint.generation) entered found t'
    have before := tracked.tally
    simp only [generation]
    omega
  queue := by
    intro calm
    obtain ⟨calm', change⟩ := queue calm
    have total := countP_set (q := fun t => t.phase.waits m.checkpoint.generation) found t'
    have before := tracked.queue calm'
    simp only [generation]
    omega
  short := fun _ => short
  doomed := by
    simp only [generation]
    rintro (⟨loser, member, lost⟩ | poisoned)
    · obtain member | rfl := List.mem_or_eq_of_mem_set member
      · exact tracked.doomed (.inl ⟨loser, member, lost⟩)
      · exact doomed (.inl lost)
    · exact doomed (.inr poisoned)
  alarmed := by
    intro loser member panicked
    by_contra calm
    obtain ⟨calm', other⟩ := alarmed (Bool.eq_false_iff.mpr calm)
    obtain member | rfl := List.mem_or_eq_of_mem_set member
    · have poisoned := tracked.alarmed loser member panicked
      rw [calm'] at poisoned
      cases poisoned
    · exact other panicked

/-- The last arrival finds everybody else at the barrier: were the thread to wait there as well,
all would wait. -/
theorem all_wait (tracked : Tracked p first now m) {prepared : Int} {l' : Local}
    (found : m.threads[index]? = some ⟨.arriving m.checkpoint.generation prepared, l'⟩)
    (calm : m.checkpoint.poisoned = false)
    (last : m.checkpoint.arrived + 1 = m.checkpoint.participants) :
    ∀ t ∈ m.threads.set index ⟨.waiting m.checkpoint.generation prepared
        m.checkpoint.generation, l'⟩, t.phase.waits m.checkpoint.generation = true := by
  have total := countP_set (q := fun t => t.phase.waits m.checkpoint.generation) found
    ⟨.waiting m.checkpoint.generation prepared m.checkpoint.generation, l'⟩
  have waiting := tracked.queue calm
  have crew := tracked.crew
  simp only [Phase.waits, beq_self_eq_true, Bool.toNat_false, Bool.toNat_true] at total
  apply List.countP_eq_length.mp
  rw [List.length_set]
  simp only [Phase.waits] at waiting ⊢
  omega

/-- The last arrival ends the round. -/
theorem passes (tracked : Tracked p first now m) {prepared : Int} {l' : Local}
    (found : m.threads[index]? = some ⟨.arriving m.checkpoint.generation prepared, l'⟩)
    (calm : m.checkpoint.poisoned = false)
    (last : m.checkpoint.arrived + 1 = m.checkpoint.participants) :
    Tracked p first (m.shared, m.threads.map (·.state))
      ⟨m.shared,
        { m.checkpoint with arrived := 0, generation := m.checkpoint.generation + 1 },
        m.threads.set index ⟨p.pastBarrier m.checkpoint.generation prepared, l'⟩⟩ := by
  obtain ⟨l, entered, here⟩ := exists_of_forall₂ tracked.stands found
  have through : Phase.through m.checkpoint.generation
      (.arriving m.checkpoint.generation prepared) = true := by simp [Phase.through]
  have within := here.within_of_through through
  have done := here.after_of_through through
  have next : prepared = (p.task (m.checkpoint.generation + 1)).prepare l' := by
    cases here
    rfl
  -- the thread passes without waiting, but leaves what it would have left had it waited
  let waiter : Thread :=
    ⟨.waiting m.checkpoint.generation prepared m.checkpoint.generation, l'⟩
  have waits : ∀ t ∈ m.threads.set index waiter,
      t.phase.waits m.checkpoint.generation = true := tracked.all_wait found calm last
  have stands := forall₂_set (y := waiter) tracked.stands entered
    (by subst next; exact .waiting within done)
  have states : (m.threads.set index waiter).map (·.state) = m.threads.map (·.state) :=
    map_set_eq found rfl
  have shared : m.shared =
      now.1 + (now.2.map (p.task m.checkpoint.generation).gain).sum := by
    have total := sum_zipWith_set (f := gained p m.checkpoint.generation) entered found waiter
    rw [gained_of_all_wait stands waits] at total
    simp only [gained, Phase.through, beq_self_eq_true, if_true, waiter] at total
    have tally := tracked.tally
    omega
  have fresh : ∀ t ∈ m.threads.set index ⟨p.pastBarrier m.checkpoint.generation prepared, l'⟩,
      t.phase.isLost = false ∧ t.phase.through (m.checkpoint.generation + 1) = false := by
    intro t member
    rw [← List.set_set waiter] at member
    exact fresh_of_all_wait waits member
  have onward : Stands p (m.checkpoint.generation + 1) m.shared l'
      ⟨p.pastBarrier m.checkpoint.generation prepared, l'⟩ := by
    rw [next]
    exact .pastBarrier rfl (Nat.succ_le_succ within)
  exact {
    reached := by
      have ended := round_of_forall₂ (done_of_all_wait stands waits)
      rw [states, ← shared] at ended
      rw [p.take_agenda_succ within, rounds_append, tracked.reached]
      simp [rounds, ended]
    within := Nat.succ_le_succ within
    crew := by simpa using tracked.crew
    stands := by
      have all := released_of_all_wait stands waits m.shared
      rw [states] at all
      rw [← List.set_set waiter]
      exact forall₂_set all (by rw [List.getElem?_map, found]; rfl) onward
    tally := by
      rw [sum_zipWith_eq_zero, add_zero]
      intro l t member
      simp [gained, (fresh t member).2]
    queue := by
      intro _
      rw [eq_comm, List.countP_eq_zero]
      intro t member blocked
      have ahead := (fresh t member).2
      rw [Phase.through_of_waits blocked] at ahead
      cases ahead
    short := fun _ => by simp only; omega
    doomed := by
      rintro (⟨t, member, lost⟩ | poisoned)
      · rw [(fresh t member).1] at lost
        cases lost
      · rw [calm] at poisoned
        cases poisoned
    alarmed := by
      intro t member panicked
      have lost := (fresh t member).1
      rw [panicked] at lost
      cases lost }

/-- The thread is lost, and what it had gained was nothing. -/
theorem loses (tracked : Tracked p first now m) {t : Thread} {l : Local}
    (found : m.threads[index]? = some t) (entered : now.2[index]? = some l)
    (doomed : ∃ l ∈ now.2, (p.task m.checkpoint.generation).after now.1 l = none)
    (blocked : t.phase.waits m.checkpoint.generation = true → m.checkpoint.poisoned = true) :
    Tracked p first now
      ⟨m.shared, m.checkpoint, m.threads.set index ⟨.unwinding, t.state⟩⟩ := by
  obtain ⟨loser, member, panics⟩ := doomed
  apply tracked.stays found entered (.unwinding t.state) rfl rfl
  case tally => simp [gained, Step.gain_of_panics panics l, Phase.through]
  case queue =>
    intro calm
    refine ⟨calm, ?_⟩
    have free : t.phase.waits m.checkpoint.generation = false := by
      by_contra waits
      rw [blocked (by simpa using waits)] at calm
      cases calm
    rw [free]
    rfl
  case short => exact tracked.short (by rintro empty; simp [empty] at found)
  case doomed => exact fun _ => ⟨loser, member, panics⟩
  case alarmed => exact fun calm => ⟨calm, by simp⟩

theorem advance (tracked : Tracked p first now m) (moved : p.advance? m index = some next) :
    ∃ now', Tracked p first now' next := by
  obtain ⟨t, t', shared, c, found, move, rfl⟩ := Program.move_of_advance? moved
  obtain ⟨l, entered, here⟩ := exists_of_forall₂ tracked.stands found
  have some_thread : m.threads ≠ [] := by
    rintro empty
    simp [empty] at found
  have short := tracked.short some_thread
  have crew := tracked.crew
  cases move with
  | prepares =>
    cases here with
    | preparing within done =>
      refine ⟨now, tracked.stays found entered ?_ rfl rfl ?_ ?_ short ?_ ?_⟩
      · rw [p.prepare_task]
        exact .arriving within done
      · simp [gained, Phase.through]
      · simp [Phase.waits]
      · exact fun trouble => tracked.doomed (.inr (by simpa [Phase.isLost] using trouble))
      · simp
  | arrivesLate poisoned =>
    exact ⟨now, tracked.loses found entered (tracked.doomed (.inr poisoned)) fun _ => poisoned⟩
  | passes calm last =>
    cases here with
    | arriving within done => exact ⟨_, tracked.passes found calm last⟩
  | arrives calm missing =>
    cases here with
    | arriving within done =>
      refine ⟨now, tracked.stays found entered (.waiting within done) rfl rfl ?_ ?_ ?_ ?_ ?_⟩
      · simp [gained, Phase.through]
      · simp [Phase.waits, calm]
      · simp only
        omega
      · simp [Phase.isLost, calm]
      · simp
  | wakesLate poisoned =>
    exact ⟨now, tracked.loses found entered (tracked.doomed (.inr poisoned)) fun _ => poisoned⟩
  | wakes calm passed =>
    cases here with
    | waiting within done => exact absurd rfl passed
    | released entering =>
      have onward : Stands p m.checkpoint.generation now.1 l _ :=
        .pastBarrier entering tracked.within
      refine ⟨now, tracked.stays found entered onward rfl rfl ?_ ?_ short ?_ ?_⟩
      · simp [gained, passed.symm]
      · simp [passed.symm]
      · simp [calm]
      · exact fun calm => ⟨calm, fun lost => by simpa using Phase.isLost_of_panicked lost⟩
  | takes taken step =>
    cases here with
    | running entering inside =>
      rw [p.step?_eq_task inside, ← entering, Option.some.injEq] at taken
      rw [← taken, Step.execute_prepare, tracked.after_shared] at step
      obtain ⟨l', done, rest⟩ := Option.map_eq_some_iff.mp step
      obtain ⟨rfl, rfl⟩ := Prod.mk.inj rest
      rw [← entering]
      refine ⟨now, tracked.stays found entered (.preparing ?_ done) rfl rfl ?_ ?_ short ?_ ?_⟩
      · omega
      · simp [gained, Phase.through]
      · simp [Phase.waits]
      · exact fun trouble => tracked.doomed (.inr (by simpa [Phase.isLost] using trouble))
      · simp
  | panics none =>
    cases here with
    | running entering inside =>
      rw [p.step?_eq_task inside, ← entering, Option.bind_some, Step.execute_prepare,
        Option.map_eq_none_iff, tracked.after_shared] at none
      have member : l ∈ now.2 := List.mem_of_getElem? entered
      exact ⟨now, tracked.loses found entered ⟨l, member, none⟩ (by simp [Phase.waits])⟩
  | poisons =>
    have doomed := tracked.doomed (.inl ⟨_, List.mem_of_getElem? found, rfl⟩)
    refine ⟨now, tracked.stays found entered (.panicked _) rfl rfl ?_ ?_ short ?_ ?_⟩
    · simp [gained, Phase.through]
    · simp [Checkpoint.poison]
    · exact fun _ => doomed
    · simp [Checkpoint.poison]

end Tracked

end NumaHeap.Lockstep
