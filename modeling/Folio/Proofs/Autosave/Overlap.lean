/-
# How far saves of a coordinator overlap

A firing begins an attempt and sets the timer anew, whatever becomes of the attempt.  Nothing keeps
a second attempt from saving while the save of the first is in flight: if a save takes longer than
the timer runs, the document is sent again (`Clockwork.saves_overlap`).

What there is instead is the timer.  Attempts of a coordinator begin one timer interval apart at
least, however often it is stopped and started (`Clockwork.Spaced`).  So of the saves in flight, as
many at most belong to attempts that began within a number of intervals as there are intervals: one,
if saves are quicker than the timer (`Clockwork.saves_within`).
-/
import Folio.Proofs.Autosave.Deadlines
import Folio.Proofs.Autosave.Permission

namespace Folio

/-! ## 1. When attempts begin -/

/-- The number of the process with which an attempt of a coordinator begins, and the time. -/
def Event.beginning? (k : CoordinatorId) : Event → Option (Nat × Nat)
  | .stepped n (.attempt j .due) _ s => if j = k then some (n, s.now) else none
  | _ => none

theorem Event.isSome_beginning? (k : CoordinatorId) (e : Event) :
    (e.beginning? k).isSome = e.beginsFor k := by
  cases e with
  | stepped n p answer s =>
    cases p with
    | attempt j a =>
      cases a with
      | due => by_cases same : j = k <;> simp [beginning?, beginsFor, same]
      | _ => rfl
    | _ => rfl
  | _ => rfl

/-- What begins does not fire. -/
theorem Event.firesFor_of_beginning {k : CoordinatorId} {e : Event} {b : Nat × Nat}
    (begins : e.beginning? k = some b) : e.firesFor k = false := by
  cases e with
  | stepped n p answer s =>
    cases p with
    | attempt j a =>
      cases a with
      | due => rfl
      | _ => cases begins
    | _ => cases begins
  | _ => cases begins

/-- Who enters has sent nothing. -/
theorem Process.savesFor_of_isFresh {k : CoordinatorId} {p : Process} (fresh : p.isFresh = true) :
    p.savesFor k = false := by
  cases p with
  | attempt j a =>
    cases a with
    | due => rfl
    | _ => cases fresh
  | _ => rfl

namespace Clockwork

variable {x : Clockwork} {k : CoordinatorId}

/-- The attempts of a coordinator that have begun, by the numbers of their processes, and when. -/
def beginnings (x : Clockwork) (k : CoordinatorId) : List (Nat × Nat) :=
  x.traffic.log.filterMap (Event.beginning? k)

theorem length_beginnings (x : Clockwork) (k : CoordinatorId) :
    (x.beginnings k).length = x.traffic.begun k := by
  rw [beginnings, List.length_filterMap_eq_countP, Traffic.begun]
  simp only [Event.isSome_beginning?]

/-- **What a move counts**: the timer fires, or an attempt begins, or neither. -/
inductive Beats (x y : Clockwork) (k : CoordinatorId) : Prop
  | rests (firings : y.traffic.firings k = x.traffic.firings k)
      (begun : y.beginnings k = x.beginnings k)
  | fires (firings : y.traffic.firings k = x.traffic.firings k + 1)
      (begun : y.beginnings k = x.beginnings k)
  | begins (n : Nat) (firings : y.traffic.firings k = x.traffic.firings k)
      (begun : y.beginnings k = x.beginnings k ++ [(n, x.now)])

theorem beats_step (x : Clockwork) (m : Move) (k : CoordinatorId) : x.Beats (x.step m) k := by
  rcases x.traffic_step m with same | ⟨m', same, -⟩
  · exact .rests (by rw [same]) (by rw [beginnings, same, beginnings])
  · obtain ⟨e, does⟩ := x.traffic.step_does m'
    have firings : (x.step m).traffic.firings k =
        x.traffic.firings k + e.toList.countP (·.firesFor k) := by
      rw [same, Traffic.firings, does.log, List.countP_append, Traffic.firings]
    have begun : (x.step m).beginnings k =
        x.beginnings k ++ e.toList.filterMap (Event.beginning? k) := by
      rw [beginnings, same, does.log, List.filterMap_append, beginnings]
    cases e with
    | none => exact .rests firings (begun.trans (List.append_nil _))
    | some event =>
      rw [Option.toList_some, List.countP_singleton] at firings
      rw [Option.toList_some, List.filterMap_cons, List.filterMap_nil] at begun
      cases begins : event.beginning? k with
      | none =>
        rw [begins] at begun
        cases fires : event.firesFor k with
        | false => exact .rests (by rw [firings, fires]; rfl) (begun.trans (List.append_nil _))
        | true => exact .fires (by rw [firings, fires]; rfl) (begun.trans (List.append_nil _))
      | some b =>
        rw [begins] at begun
        rw [Event.firesFor_of_beginning begins] at firings
        -- the event is noted with the session in which it happens
        obtain ⟨n, rfl⟩ : ∃ n, b = (n, x.now) := by
          generalize x.traffic.step m' = y at does
          cases does with
          | @goes i oracle before after t answer =>
            obtain ⟨n, p, reply⟩ := t
            cases p with
            | attempt j a =>
              cases a with
              | due =>
                obtain ⟨-, here⟩ := Option.ite_none_right_eq_some.mp begins
                exact ⟨n, (Option.some.inj here).symm⟩
              | _ => cases begins
            | _ => cases begins
          | _ => cases begins
        exact .begins n firings begun

/-- Time does not go back. -/
theorem now_le_step (x : Clockwork) (m : Move) : x.now ≤ (x.step m).now := by
  have does := x.step_does m
  generalize x.step m = y at does ⊢
  cases does with
  | nothing | sets => exact Nat.le_refl _
  | moves admitted =>
    exact Nat.le_of_eq (x.traffic.now_step fun now same => by subst same; cases admitted).symm
  | wakes => exact Nat.le_of_eq (Process.now_resume _ _ _).symm
  | elapses rests => exact of_decide_eq_true (Bool.and_eq_true_iff.mp rests).1

/-! ## 2. One interval apart -/

/-- **A move that sets the timer of a coordinator anew** sets it for so long at least. -/
def keepsPace (k : CoordinatorId) (d : Nat) (x : Clockwork) (m : Move) : Bool :=
  !x.restarts k m || decide (d ≤ (x.step m).wait k)

/-- **Attempts begin one interval apart**: so far apart as the timer runs at least, those that have
begun from each other, and from those that are to come. -/
structure Spaced (k : CoordinatorId) (d : Nat) (x : Clockwork) : Prop where
  past : ∀ b ∈ x.beginnings k, b.2 ≤ x.now
  apart : (x.beginnings k).Pairwise fun b c => b.2 + d ≤ c.2
  ahead : ∀ t ∈ x.traffic.errands, ∀ n, t.process.loopOf? k = some n →
    (x.session.coordinator k).runs n = true → ∀ b ∈ x.beginnings k, b.2 + d ≤ x.deadline k t
  one : x.traffic.due k ≤ 1
  room : 0 < x.traffic.due k → ∀ b ∈ x.beginnings k, b.2 + d ≤ x.now
  wide : 0 < x.traffic.due k → ∀ t ∈ x.traffic.errands, ∀ n, t.process.loopOf? k = some n →
    (x.session.coordinator k).runs n = true → x.now + d ≤ x.deadline k t

/-- **A deadline after a move** is as far ahead as one before, or one interval. -/
theorem Wound.deadline_step (wound : x.Wound) {m : Move} (after : (x.step m).Wound) {d : Nat}
    (pace : keepsPace k d x m = true) {u : Errand} (hu : u ∈ (x.step m).traffic.errands) {n : Nat}
    (loop : u.process.loopOf? k = some n)
    (runs : ((x.step m).session.coordinator k).runs n = true) {instant : Nat}
    (before : ∀ t ∈ x.traffic.errands, ∀ n, t.process.loopOf? k = some n →
      (x.session.coordinator k).runs n = true → instant ≤ x.deadline k t)
    (soon : instant ≤ x.now + d) : instant ≤ (x.step m).deadline k u := by
  cases wound.sets_step after hu loop runs with
  | anew restart deadline =>
    rw [keepsPace, restart, Bool.not_true, Bool.false_or, decide_eq_true_eq] at pace
    have now := x.now_le_step m
    omega
  | stands calm t ht number loop' runs' deadline =>
    rw [deadline]
    exact before t ht number loop' runs'

namespace Spaced

variable {d : Nat} {m : Move} (spaced : Spaced k d x) (wound : x.Wound) (after : (x.step m).Wound)
  (pace : keepsPace k d x m = true)

include spaced wound after pace

/-- What has begun is one interval behind every timer, whatever move is made. -/
theorem stays_ahead {u : Errand} (hu : u ∈ (x.step m).traffic.errands) {n : Nat}
    (loop : u.process.loopOf? k = some n)
    (runs : ((x.step m).session.coordinator k).runs n = true) {b : Nat × Nat}
    (hb : b ∈ x.beginnings k) : b.2 + d ≤ (x.step m).deadline k u :=
  wound.deadline_step after pace hu loop runs
    (fun t ht n loop' runs' => spaced.ahead t ht n loop' runs' b hb)
    (Nat.add_le_add_right (spaced.past b hb) d)

/-- **No timer fires and no attempt begins**; while one is to begin, no time passes. -/
theorem rests (due : (x.step m).traffic.due k = x.traffic.due k)
    (begun : (x.step m).beginnings k = x.beginnings k) : Spaced k d (x.step m) where
  past b hb := Nat.le_trans (spaced.past b (begun ▸ hb)) (x.now_le_step m)
  apart := begun ▸ spaced.apart
  ahead u hu n loop runs b hb := spaced.stays_ahead wound after pace hu loop runs (begun ▸ hb)
  one := due ▸ spaced.one
  room some_due b hb :=
    Nat.le_trans (spaced.room (due ▸ some_due) b (begun ▸ hb)) (x.now_le_step m)
  wide some_due u hu n loop runs := by
    rw [due] at some_due
    rw [x.now_of_due m some_due]
    exact wound.deadline_step after pace hu loop runs (spaced.wide some_due) (Nat.le_refl _)

/-- **The timer fires**: it was set after the last firing, whose attempt has begun since, and is set
anew. -/
theorem fires (some_time : 0 < d) (fires : x.fires k m = true)
    (due : (x.step m).traffic.due k = x.traffic.due k + 1)
    (begun : (x.step m).beginnings k = x.beginnings k) : Spaced k d (x.step m) := by
  obtain ⟨same, t, ht, n, loop, runs, elapsed⟩ := wound.fires_at fires
  have none : x.traffic.due k = 0 := by
    refine Nat.eq_zero_of_not_pos fun some_due => ?_
    have wide := spaced.wide some_due t ht n loop runs
    omega
  have restart : x.restarts k m = true := by rw [restarts, fires]; rfl
  have wait : d ≤ (x.step m).wait k := by
    simpa [keepsPace, restart] using pace
  constructor
  · exact fun b hb => Nat.le_trans (spaced.past b (begun ▸ hb)) (x.now_le_step m)
  · exact begun ▸ spaced.apart
  · exact fun u hu n loop runs b hb =>
      spaced.stays_ahead wound after pace hu loop runs (begun ▸ hb)
  · omega
  · intro _ b hb
    rw [same, ← elapsed]
    exact spaced.ahead t ht n loop runs b (begun ▸ hb)
  · intro _ u hu n loop runs
    rw [wound.stands_anew after restart u hu n loop runs]
    omega

/-- **An attempt begins** that was due, one interval after the others. -/
theorem begins {n : Nat} (due : (x.step m).traffic.due k + 1 = x.traffic.due k)
    (begun : (x.step m).beginnings k = x.beginnings k ++ [(n, x.now)]) :
    Spaced k d (x.step m) := by
  have some_due : 0 < x.traffic.due k := by omega
  have one := spaced.one
  have now := x.now_le_step m
  constructor
  · intro b hb
    rw [begun, List.mem_append, List.mem_singleton] at hb
    rcases hb with hb | rfl
    · exact Nat.le_trans (spaced.past b hb) now
    · exact now
  · rw [begun, List.pairwise_append]
    refine ⟨spaced.apart, List.pairwise_singleton _ _, fun b hb c hc => ?_⟩
    rw [List.mem_singleton.mp hc]
    exact spaced.room some_due b hb
  · intro u hu n' loop runs b hb
    rw [begun, List.mem_append, List.mem_singleton] at hb
    rcases hb with hb | rfl
    · exact spaced.stays_ahead wound after pace hu loop runs hb
    · exact wound.deadline_step after pace hu loop runs (spaced.wide some_due) (Nat.le_refl _)
  · omega
  · exact fun more => absurd more (by omega)
  · exact fun more => absurd more (by omega)

/-- **A move keeps the attempts apart.** -/
theorem step (some_time : 0 < d) : Spaced k d (x.step m) := by
  -- the attempts that are due are those for which the timer has fired and that have not begun
  have even := wound.even k
  have even' := after.even k
  rw [← length_beginnings] at even even'
  cases x.beats_step m k with
  | rests firings begun =>
    rw [firings, begun] at even'
    exact spaced.rests wound after pace (by omega) begun
  | fires firings begun =>
    rw [firings, begun] at even'
    exact spaced.fires wound after pace some_time (decide_eq_true (by omega)) (by omega) begun
  | begins n firings begun =>
    rw [firings, begun, List.length_append, List.length_singleton] at even'
    exact spaced.begins wound after pace (by omega) begun

end Spaced

theorem spaced_run (config : Settings) (store : MemoryStore) {moves : List Move} {d : Nat}
    (some_time : 0 < d)
    (pace : (start (.create config) store).throughout (keepsPace k d) moves = true) :
    Spaced k d ((start (.create config) store).run moves) := by
  induction moves using List.reverseRecOn with
  | nil =>
    have nobody (t : Errand) : t ∉ (start (.create config) store).traffic.errands :=
      List.not_mem_nil
    exact ⟨nofun, List.Pairwise.nil, fun t ht => absurd ht (nobody t), Nat.zero_le _, nofun,
      fun _ t ht => absurd ht (nobody t)⟩
  | append_singleton moves m ih =>
    rw [throughout_concat, Bool.and_eq_true] at pace
    have after := wound_run config store (moves ++ [m])
    rw [run_concat] at after ⊢
    exact (ih pace.1).step (wound_run config store moves) after pace.2 some_time

/-- **No timer runs shorter than a second.** -/
theorem keepsPace_second (config : Settings) (store : MemoryStore) (moves : List Move)
    (k : CoordinatorId) :
    (start (.create config) store).throughout (keepsPace k 1000) moves = true := by
  induction moves using List.reverseRecOn with
  | nil => rfl
  | append_singleton moves m ih =>
    have paced := (wound_run config store (moves ++ [m])).paced k
    have long := Nat.le_trans paced.shortest paced.least
    have second : 1000000000 ≤
        (((start (.create config) store).run (moves ++ [m])).session.coordinator k).current.nanos :=
      long
    rw [throughout_concat, ih, Bool.true_and, keepsPace, Bool.or_eq_true, decide_eq_true_eq,
      ← run_concat, wait, Duration.timer]
    refine .inr (Nat.le_min.mpr ⟨?_, by decide⟩)
    simp only [Duration.millisUp, nanosPerMilli]
    omega

/-- Of instants that are so far apart, the first is as far back as there are others. -/
theorem span_of_apart {d now : Nat} : ∀ {l : List (Nat × Nat)} {b : Nat × Nat},
    (b :: l).Pairwise (fun b c => b.2 + d ≤ c.2) → (∀ c ∈ b :: l, c.2 ≤ now) →
      b.2 + l.length * d ≤ now
  | [], b, _, past => by simpa using past b List.mem_cons_self
  | c :: l, b, apart, past => by
    obtain ⟨first, rest⟩ := List.pairwise_cons.mp apart
    have later := span_of_apart rest fun e he => past e (List.mem_cons_of_mem b he)
    have next := first c List.mem_cons_self
    rw [List.length_cons, Nat.succ_mul]
    omega

/-- **So many intervals back**, so many attempts have begun at most. -/
theorem Spaced.recent {d : Nat} (spaced : Spaced k d x) (m : Nat) :
    ((x.beginnings k).filter fun b => decide (x.now < b.2 + m * d)).length ≤ m := by
  have apart := spaced.apart.filter fun b => decide (x.now < b.2 + m * d)
  have recent (b : Nat × Nat)
      (hb : b ∈ (x.beginnings k).filter fun b => decide (x.now < b.2 + m * d)) :
      b.2 ≤ x.now ∧ x.now < b.2 + m * d := by
    obtain ⟨there, recent⟩ := List.mem_filter.mp hb
    exact ⟨spaced.past b there, of_decide_eq_true recent⟩
  generalize (x.beginnings k).filter (fun b => decide (x.now < b.2 + m * d)) = l at apart recent
  cases l with
  | nil => exact Nat.zero_le m
  | cons b l =>
    have span := span_of_apart apart fun c hc => (recent c hc).1
    have within := (recent b List.mem_cons_self).2
    have fewer : l.length * d < m * d := by omega
    exact Nat.lt_of_mul_lt_mul_right fewer

/-! ## 3. Saves in flight -/

/-- How many saves of a coordinator are in flight. -/
def saving (x : Clockwork) (k : CoordinatorId) : Nat :=
  x.traffic.errands.countP fun t => t.process.savesFor k

/-- The attempt of this number has begun within a time. -/
def beganWithin (x : Clockwork) (k : CoordinatorId) (span n : Nat) : Bool :=
  (x.beginnings k).any fun b => b.1 == n && decide (x.now < b.2 + span)

/-- How many of the saves in flight belong to attempts that began within a time. -/
def savingWithin (x : Clockwork) (k : CoordinatorId) (span : Nat) : Nat :=
  x.traffic.errands.countP fun t => t.process.savesFor k && x.beganWithin k span t.number

/-- **So many of the saves in flight** at most belong to attempts that began within so many
intervals. -/
theorem Spaced.savingWithin_le {d : Nat} (spaced : Spaced k d x) (coherent : x.traffic.IsCoherent)
    (m : Nat) : x.savingWithin k (m * d) ≤ m := by
  have recent := spaced.recent m
  rw [savingWithin, List.countP_eq_length_filter, ← List.length_map Errand.number]
  refine Nat.le_trans ?_ recent
  rw [← List.length_map Prod.fst]
  -- each of them began under its own number
  have nodup : ((x.traffic.errands.filter fun t =>
      t.process.savesFor k && x.beganWithin k (m * d) t.number).map Errand.number).Nodup :=
    coherent.nodup.sublist (List.filter_sublist.map Errand.number)
  refine (List.subperm_of_subset nodup fun n hn => ?_).length_le
  obtain ⟨t, ht, rfl⟩ := List.mem_map.mp hn
  obtain ⟨-, saves⟩ := List.mem_filter.mp ht
  obtain ⟨b, hb, same⟩ := List.any_eq_true.mp (Bool.and_eq_true_iff.mp saves).2
  obtain ⟨number, within⟩ := Bool.and_eq_true_iff.mp same
  exact List.mem_map.mpr ⟨b, List.mem_filter.mpr ⟨hb, within⟩, beq_iff_eq.mp number⟩

/-- **A firing leaves the saves in flight**, and sends nothing. -/
theorem saves_of_fires {m : Move} (fires : x.fires k m = true) :
    (x.step m).saving k = x.saving k ∧
      ∀ t ∈ x.traffic.errands, t.process.savesFor k = true → t ∈ (x.step m).traffic.errands := by
  have more : x.traffic.firings k < (x.step m).traffic.firings k := of_decide_eq_true fires
  have does := x.step_does m
  generalize x.step m = y at does more ⊢
  cases does with
  | nothing => exact absurd more (Nat.lt_irrefl _)
  | moves admitted => exact absurd more (by rw [firings_moves admitted]; exact Nat.lt_irrefl _)
  | sets => exact absurd more (Nat.lt_irrefl _)
  | elapses => exact absurd more (Nat.lt_irrefl _)
  | @wakes i first others w j number place c interval reply tick all calls goes =>
    refine ⟨?_, fun t ht saves => ?_⟩
    · have entered : (Traffic.entering x.traffic.next ((Process.ticking j number place c
          interval).resume x.session tick).1.started).countP
            (fun t => t.process.savesFor k) = 0 := by
        refine List.countP_eq_zero.mpr fun t ht => ?_
        obtain ⟨l, hl, rfl⟩ := List.mem_mapIdx.mp ht
        exact Bool.eq_false_iff.mp (Process.savesFor_of_isFresh (Process.isFresh_ofBackground _))
      have goesOn : (Errand.next? w ((Process.ticking j number place c interval).resume x.session
          tick).2).toList.countP (fun t => t.process.savesFor k) = 0 := by
        cases next : ((Process.ticking j number place c interval).resume x.session tick).2 with
        | inl q =>
          obtain ⟨-, later, rfl, -⟩ := Process.wakes next
          rfl
        | inr outcome => rfl
      show List.countP _ ((others ++ _) ++ _) = List.countP _ x.traffic.errands
      rw [List.countP_append, List.countP_append, entered, goesOn, all.countP_eq, List.countP_cons]
      rfl
    · rcases List.mem_cons.mp (all.mem_iff.mp ht) with rfl | there
      · cases saves
      · exact List.mem_append_left _ (List.mem_append_left _ there)

end Clockwork

/-! ## 4. Each attempt sends once -/

/-- **A process begins a save of a coordinator**, with a step of its own. -/
def Event.sendsFor (k : CoordinatorId) : Event → Bool
  | .stepped _ p answer s =>
    match (p.resume s answer).2 with
    | .inl q => q.savesFor k
    | .inr _ => false
  | _ => false

/-- Who has sent the document does not go on. -/
theorem Process.ends_of_savesFor {k : CoordinatorId} {s : Session} {p q : Process}
    {answer : p.need.Answer} (saves : p.savesFor k = true)
    (next : (p.resume s answer).2 = .inl q) : False := by
  cases goesOn next with
  | @attempts j a following given follows =>
    cases a with
    | saving since path request => cases follows
    | _ => cases saves
  | _ => cases saves

/-- **An attempt sends the document at most once.** -/
theorem Course.sends {n : Nat} {h : List Event} {o : Option Errand} (course : Course n h o)
    (k : CoordinatorId) : h.countP (·.sendsFor k) ≤ 1 ∧
      ∀ t ∈ o, h.countP (·.sendsFor k) = (t.process.savesFor k).toNat := by
  induction course with
  | enters fresh =>
    refine ⟨Nat.zero_le 1, ?_⟩
    rintro _ ⟨⟩
    rw [Process.savesFor_of_isFresh fresh]
    rfl
  | @carries h t store store' reply before done ih | @answers h t reply before ih =>
    rw [List.countP_append]
    refine ⟨ih.1, ?_⟩
    rintro _ ⟨⟩
    exact ih.2 t rfl
  | @goes h t oracle answer before ready s ih =>
    have sent := ih.2 t rfl
    rw [List.countP_append, List.countP_singleton, sent]
    cases next : (t.process.resume s answer).2 with
    | inr outcome =>
      have silent : (Event.stepped n t.process answer s).sendsFor k = false := by
        rw [Event.sendsFor, next]
      rw [silent]
      refine ⟨?_, fun u hu => by cases hu⟩
      cases t.process.savesFor k <;> decide
    | inl q =>
      have sends : (Event.stepped n t.process answer s).sendsFor k = q.savesFor k := by
        rw [Event.sendsFor, next]
      have unsent : t.process.savesFor k = false :=
        Bool.eq_false_iff.mpr fun saves => Process.ends_of_savesFor saves next
      rw [sends, unsent]
      refine ⟨by cases q.savesFor k <;> decide, fun u hu => ?_⟩
      obtain rfl := Option.some.inj hu
      cases q.savesFor k <;> rfl

namespace Clockwork

variable {x : Clockwork} {k : CoordinatorId}

/-- How often the process of a number has sent the document for a coordinator. -/
def sends (x : Clockwork) (k : CoordinatorId) (n : Nat) : Nat :=
  (own n x.traffic.log).countP (·.sendsFor k)

theorem sends_le (coherent : x.traffic.IsCoherent) (n : Nat) : x.sends k n ≤ 1 := by
  by_cases there : n ∈ x.traffic.errands.map (·.number)
  · obtain ⟨t, ht, rfl⟩ := List.mem_map.mp there
    exact ((Coherent.underway coherent t ht).sends k).1
  · rcases Nat.lt_or_ge n x.traffic.next with used | unused
    · exact ((Coherent.ended coherent n used there).sends k).1
    · rw [sends, Coherent.unused coherent n unused]
      exact Nat.zero_le 1

/-! ## 5. Runs -/

/-- **Every save in flight belongs to an attempt that has begun.** -/
theorem began_of_saving (coherent : x.traffic.IsCoherent) {t : Errand}
    (ht : t ∈ x.traffic.errands) (saves : t.process.savesFor k = true) :
    ∃ b ∈ x.beginnings k, b.1 = t.number := by
  obtain ⟨since, path, request, same⟩ :
      ∃ since path request, t.process = .attempt k (.saving since path request) := by
    generalize t.process = p at saves
    cases p with
    | attempt j a =>
      cases a with
      | saving since path request => exact ⟨since, path, request, by rw [beq_iff_eq.mp saves]⟩
      | _ => cases saves
    | _ => cases saves
  obtain ⟨s, logged, -⟩ :=
    ((Coherent.underway coherent t ht).permits t rfl k _ same).resolve_left Attempt.noConfusion
  refine ⟨(t.number, s.now), List.mem_filterMap.mpr ⟨_, List.mem_of_mem_filter logged, ?_⟩, rfl⟩
  exact if_pos rfl

variable (config : Settings) (store : MemoryStore)

/-- **Saves of a coordinator overlap as far as they outlast its timer, and no further.**  In a run
in which the timer of a coordinator is never set for less than a certain time, for a second at
least in every run (`keepsPace_second`): of the saves in flight, so many at most belong to attempts
that began within so many of these times.  So if none of them has been under way for longer, so many
are in flight at most; and one, if none has been under way for as long as the timer runs.

When the timer fires, it is set anew, one attempt is to begin, and the saves in flight stay as they
are.  An attempt sends the document once at most. -/
theorem saves_within {moves : List Move} (k : CoordinatorId) {d : Nat} (some_time : 0 < d)
    (pace : (start (.create config) store).throughout (keepsPace k d) moves = true) :
    let x := (start (.create config) store).run moves
    (∀ t ∈ x.traffic.errands, t.process.savesFor k = true →
      ∃ b ∈ x.beginnings k, b.1 = t.number ∧ b.2 ≤ x.now) ∧
    (∀ m, x.savingWithin k (m * d) ≤ m ∧
      ((∀ t ∈ x.traffic.errands, t.process.savesFor k = true →
        x.beganWithin k (m * d) t.number = true) → x.saving k ≤ m)) ∧
    (∀ m, keepsPace k d x m = true → x.fires k m = true →
      (x.step m).traffic.timers k = 1 ∧
      (x.step m).Stands k ((x.step m).now + (x.step m).wait k) ∧ (x.step m).traffic.due k = 1 ∧
      (x.step m).saving k = x.saving k ∧
      ∀ t ∈ x.traffic.errands, t.process.savesFor k = true → t ∈ (x.step m).traffic.errands) ∧
    ∀ n, x.sends k n ≤ 1 := by
  intro x
  have wound : x.Wound := wound_run config store moves
  have spaced : Spaced k d x := spaced_run config store some_time pace
  refine ⟨fun t ht saves => ?_,
    fun m => ⟨spaced.savingWithin_le wound.coherent m, fun within => ?_⟩,
    fun m pace fires => ?_, sends_le wound.coherent⟩
  · obtain ⟨b, hb, number⟩ := began_of_saving wound.coherent ht saves
    exact ⟨b, hb, number, spaced.past b hb⟩
  · refine Nat.le_trans ?_ (spaced.savingWithin_le wound.coherent m)
    refine List.countP_mono_left fun t ht saves => ?_
    rw [saves, within t ht saves]
    rfl
  · have after : (x.step m).Wound := by
      have after := wound_run config store (moves ++ [m])
      rwa [run_concat] at after
    have more : x.traffic.firings k < (x.step m).traffic.firings k := of_decide_eq_true fires
    obtain ⟨left, untouched⟩ := saves_of_fires fires
    refine ⟨?_, wound.stands_anew after (by rw [restarts, fires]; rfl), ?_, left, untouched⟩
    · rcases x.traffic_step m with same | ⟨m', same, -⟩
      · rw [same] at more
        exact absurd more (Nat.lt_irrefl _)
      · have timed := after.timed k
        rw [same] at timed more ⊢
        exact ((wound.timed k).fires timed more).2
    · have one := (spaced.step wound after pace some_time).one
      have even := wound.even k
      have even' := after.even k
      rw [← length_beginnings] at even even'
      cases x.beats_step m k with
      | rests firings | begins _ firings => omega
      | fires firings begun =>
        rw [begun] at even'
        omega

/-- An edit is saved by itself, and the store takes its time; a second passes. -/
def savesSlowly : List Move :=
  coordinatesFirst ++ startsFirst :: [.traffic (.go 0 Traffic.timely), .poll 0 .due,
    .traffic (Traffic.edits "mine"), .elapse 1000, .poll 0 .due, .traffic (.go 1 Traffic.timely),
    .traffic (.carryOut 1), .traffic (.go 1 Traffic.timely), .traffic (.go 0 Traffic.timely),
    .poll 1 .due, .elapse 2000]

theorem saves_within_savesSlowly :
    let x := (start (.create {}) Commons.firstStore).run savesSlowly
    let y := x.step (.poll 1 .due)
    (start (.create {}) Commons.firstStore).throughout (keepsPace 0 1000) savesSlowly = true ∧
      x.now = 2000 ∧ x.beginnings 0 = [(2, 1000)] ∧ x.saving 0 = 1 ∧ x.savingWithin 0 1001 = 1 ∧
      x.saving 0 ≤ 2 ∧ x.fires 0 (.poll 1 .due) = true ∧ y.traffic.timers 0 = 1 ∧
      y.Stands 0 (2000 + 1000) ∧ y.traffic.due 0 = 1 ∧ y.saving 0 = 1 ∧ y.sends 0 2 = 1 := by
  have pace := keepsPace_second {} Commons.firstStore savesSlowly 0
  obtain ⟨-, within, fires, -⟩ := saves_within {} Commons.firstStore 0 (by decide) pace
  obtain ⟨timer, stands, due, saving, -⟩ :=
    fires (.poll 1 .due) (by decide +kernel) (by decide +kernel)
  refine ⟨pace, by decide +kernel, by decide +kernel, by decide +kernel, by decide +kernel,
    (within 2).2 (by decide +kernel), by decide +kernel, timer, ?_, due, ?_, by decide +kernel⟩
  · exact stands
  · exact saving

/-- The timer fires again, and another attempt begins. -/
def savesAgain : List Move :=
  [.poll 1 .due, .traffic (.go 2 Traffic.timely), .traffic (.carryOut 2),
    .traffic (.go 2 Traffic.timely)]

/-- **Two saves are in flight at once**: the first has taken as long as the timer runs, and the
document, which has not changed meanwhile, is sent again. -/
theorem saves_overlap :
    let x := (start (.create {}) Commons.firstStore).run savesSlowly
    let y := (start (.create {}) Commons.firstStore).run (savesSlowly ++ savesAgain)
    x.saving 0 = 1 ∧ (x.session.context 0).model = ⟨.text "mine", true, false⟩ ∧
      y.now = 2000 ∧ y.saving 0 = 2 ∧ y.beginnings 0 = [(2, 1000), (3, 2000)] ∧
      y.sends 0 2 = 1 ∧ y.sends 0 3 = 1 ∧
      (y.session.context 0).model = (x.session.context 0).model := by
  decide +kernel

end Clockwork

end Folio
