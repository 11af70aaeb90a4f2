/-
# The course of a process

What a process does depends on what it did before, not on what others do in between.  So its events
are looked at by themselves: a `Course` is the list of the events of one process, with how it stands
after them.  It says that the process entered, that the store replied to it, that it took its steps,
each from where the step before had led, and that it has ended if it has.

In every run the events of every number are a course (`Coherent`).  A fact about one process, such
as that it asks no more than once, is proved by induction on its course, and holds in every run.
-/
import Folio.Proofs.Traffic.Basic
import Mathlib.Data.List.Nodup

namespace Folio

/-! ## 1. Courses -/

/-- **The course of the process of a number**: its events, and how it stands after them. -/
inductive Course (n : Nat) : List Event → Option Errand → Prop where
  | enters {p : Process} (fresh : p.isFresh = true) :
      Course n [] (some { number := n, process := p })
  | carries {h : List Event} {t : Errand} {store store' : MemoryStore}
      {reply : t.process.need.Answer} (before : Course n h (some t))
      (done : t.process.need.carryOut store = some (store', reply)) :
      Course n (h ++ [.carried n t.process.need reply])
        (some { number := n, process := t.process, reply := some reply })
  | answers {h : List Event} {t : Errand} (reply : t.process.need.Answer)
      (before : Course n h (some t)) :
      Course n (h ++ [.answered n t.process.need reply])
        (some { number := n, process := t.process, reply := some reply })
  | goes {h : List Event} {t : Errand} {oracle : Oracle} {answer : t.process.need.Answer}
      (before : Course n h (some t)) (ready : t.process.need.answer? oracle t.reply = some answer)
      (s : Session) :
      Course n (h ++ [.stepped n t.process answer s])
        (Errand.next? n (t.process.resume s answer).2)

namespace Course

variable {n : Nat} {h : List Event} {o : Option Errand}

/-- **What a process is at** it was when it entered, or a step of its own has led there. -/
theorem begun (course : Course n h o) : ∀ t ∈ o, t.process.isFresh = true ∨
    ∃ p answer s, .stepped n p answer s ∈ h ∧ (p.resume s answer).2 = .inl t.process := by
  induction course with
  | enters fresh =>
    rintro _ ⟨⟩
    exact .inl fresh
  | @carries h t store store' reply before done ih =>
    rintro _ ⟨⟩
    exact (ih t rfl).imp_right fun ⟨p, answer, s, hs, next⟩ =>
      ⟨p, answer, s, List.mem_append_left _ hs, next⟩
  | @answers h t reply before ih =>
    rintro _ ⟨⟩
    exact (ih t rfl).imp_right fun ⟨p, answer, s, hs, next⟩ =>
      ⟨p, answer, s, List.mem_append_left _ hs, next⟩
  | @goes h t oracle answer before ready s ih =>
    intro u hu
    exact .inr ⟨t.process, answer, s, List.mem_append_right _ List.mem_cons_self,
      (Errand.of_mem_next? hu).2.1⟩

/-- **A reply comes from the store**, if no other store has replied. -/
theorem carried_of_reply (course : Course n h o)
    (honest : ∀ need reply, .answered n need reply ∉ h) :
    ∀ t ∈ o, ∀ r, t.reply = some r → .carried n t.process.need r ∈ h := by
  induction course with
  | enters fresh =>
    rintro _ ⟨⟩ r hr
    cases hr
  | carries before done ih =>
    rintro _ ⟨⟩ r hr
    cases hr
    exact List.mem_append_right _ List.mem_cons_self
  | answers reply before ih =>
    exact absurd (List.mem_append_right _ List.mem_cons_self) (honest _ _)
  | goes before ready s ih =>
    intro u hu r hr
    rw [(Errand.of_mem_next? hu).2.2] at hr
    cases hr

end Course

/-- **The processes under way and the log fit together.** -/
structure Coherent (errands : List Errand) (next : Nat) (log : List Event) : Prop where
  nodup : (errands.map (·.number)).Nodup
  below : ∀ t ∈ errands, t.number < next
  underway : ∀ t ∈ errands, Course t.number (own t.number log) (some t)
  ended : ∀ n < next, n ∉ errands.map (·.number) → Course n (own n log) none
  unused : ∀ n, next ≤ n → own n log = []

namespace Coherent

variable {errands : List Errand} {next : Nat} {log : List Event}

theorem perm (h : Coherent errands next log) {errands' : List Errand}
    (p : errands.Perm errands') : Coherent errands' next log where
  nodup := (p.map (·.number)).nodup_iff.mp h.nodup
  below t ht := h.below t (p.mem_iff.mpr ht)
  underway t ht := h.underway t (p.mem_iff.mpr ht)
  ended n hn absent := h.ended n hn fun there => absent ((p.map (·.number)).mem_iff.mp there)
  unused := h.unused

/-- An event that is about no process changes nothing. -/
theorem aside (h : Coherent errands next log) {e : Event} (about : e.number? = none) :
    Coherent errands next (log ++ [e]) := by
  have same (n : Nat) : own n (log ++ [e]) = own n log := by
    rw [own_append, own_singleton_of_ne (by simp [about]), List.append_nil]
  refine ⟨h.nodup, h.below, fun t ht => ?_, fun n hn absent => ?_, fun n hn => ?_⟩
  · rw [same]
    exact h.underway t ht
  · rw [same]
    exact h.ended n hn absent
  · rw [same]
    exact h.unused n hn

/-- **One process gets on**, by an event that is about it; it may end with that. -/
theorem advance {t : Errand} {rest : List Errand} (h : Coherent (t :: rest) next log)
    {o : Option Errand} (same : ∀ u ∈ o, u.number = t.number) {e : Event}
    (about : e.number? = some t.number)
    (course : Course t.number (own t.number log) (some t) →
      Course t.number (own t.number log ++ [e]) o) :
    Coherent (o.toList ++ rest) next (log ++ [e]) := by
  obtain ⟨absent, nodup⟩ := List.nodup_cons.mp h.nodup
  have grown : own t.number (log ++ [e]) = own t.number log ++ [e] := by
    rw [own_append, own_singleton about]
  have other {n : Nat} (hn : n ≠ t.number) : own n (log ++ [e]) = own n log := by
    rw [own_append, own_singleton_of_ne (by simpa [about] using hn.symm), List.append_nil]
  have known : t.number < next := h.below t List.mem_cons_self
  refine ⟨?_, fun u hu => ?_, fun u hu => ?_, fun n hn gone => ?_, fun n hn => ?_⟩
  · cases o with
    | none => exact nodup
    | some u =>
      rw [Option.toList_some, List.singleton_append, List.map_cons, same u rfl]
      exact h.nodup
  · rcases List.mem_append.mp hu with hu | hu
    · rw [same u (Option.mem_toList.mp hu)]
      exact known
    · exact h.below u (List.mem_cons_of_mem t hu)
  · rcases List.mem_append.mp hu with hu | hu
    · rw [Option.mem_toList] at hu
      rw [same u hu, grown, ← show o = some u from hu]
      exact course (h.underway t List.mem_cons_self)
    · have hn : u.number ≠ t.number := fun hn => absent (List.mem_map.mpr ⟨u, hu, hn⟩)
      rw [other hn]
      exact h.underway u (List.mem_cons_of_mem t hu)
  · rw [List.map_append, List.mem_append, not_or] at gone
    by_cases hnt : n = t.number
    · subst hnt
      rw [grown]
      cases o with
      | none => exact course (h.underway t List.mem_cons_self)
      | some u =>
        rw [Option.toList_some, List.map_singleton, List.mem_singleton, same u rfl] at gone
        exact absurd rfl gone.1
    · rw [other hnt]
      refine h.ended n hn fun there => ?_
      rcases List.mem_cons.mp there with there | there
      · exact hnt there
      · exact gone.2 there
  · rw [other (fun hnt => absurd known (by omega))]
    exact h.unused n hn

/-- **A process enters.** -/
theorem enter (h : Coherent errands next log) {p : Process} (fresh : p.isFresh = true) :
    Coherent (errands ++ [{ number := next, process := p }]) (next + 1) log := by
  refine ⟨?_, fun t ht => ?_, fun t ht => ?_, fun n hn absent => ?_, fun n hn => ?_⟩
  · rw [List.map_append]
    refine List.nodup_append.mpr ⟨h.nodup, List.nodup_singleton _, ?_⟩
    intro n hn n' hn' same
    obtain ⟨t, ht, rfl⟩ := List.mem_map.mp hn
    have new : n' = next := List.mem_singleton.mp hn'
    have below := h.below t ht
    omega
  · rcases List.mem_append.mp ht with ht | ht
    · exact Nat.lt_succ_of_lt (h.below t ht)
    · rw [List.mem_singleton.mp ht]
      exact Nat.lt_succ_self next
  · rcases List.mem_append.mp ht with ht | ht
    · exact h.underway t ht
    · rw [List.mem_singleton.mp ht, h.unused next (Nat.le_refl next)]
      exact .enters fresh
  · rw [List.map_append, List.mem_append, not_or] at absent
    refine h.ended n (Nat.lt_of_le_of_ne (Nat.le_of_lt_succ hn) fun same => ?_) absent.1
    exact absent.2 (List.mem_singleton.mpr same)
  · exact h.unused n (Nat.le_of_succ_le hn)

/-- **Background work enters.** -/
theorem entering (h : Coherent errands next log) (works : List Background) :
    Coherent (errands ++ Traffic.entering next works) (next + works.length) log := by
  induction works using List.reverseRecOn with
  | nil => simpa [Traffic.entering] using h
  | append_singleton works work ih =>
    have more := ih.enter (Process.isFresh_ofBackground work)
    simpa [Traffic.entering, List.mapIdx_append, Nat.add_assoc] using more

end Coherent

namespace Traffic

/-- **The processes and the log of a traffic fit together.** -/
def IsCoherent (x : Traffic) : Prop := Coherent x.errands x.next x.log

theorem IsCoherent.step {x : Traffic} (h : x.IsCoherent) (m : Move) : (x.step m).IsCoherent := by
  obtain ⟨e, does⟩ := x.step_does m
  generalize x.step m = y at does ⊢
  cases does with
  | nothing => exact h
  | deed d => exact Coherent.entering h _
  | enter call => exact Coherent.enter h (Process.isFresh_of_isCall call)
  | others store => exact Coherent.aside h rfl
  | @carries i before after t store reply split waits done =>
    have front := Coherent.perm h (perm_of_split split)
    have gone : Coherent ({ number := t.number, process := t.process, reply := some reply } ::
        (before ++ after)) x.next (x.log ++ [_]) :=
      front.advance (o := some _) (by rintro u ⟨⟩; rfl) rfl fun c => .carries c done
    exact gone.perm List.perm_middle.symm
  | @answers i oracle before after t reply split =>
    have front := Coherent.perm h (perm_of_split split)
    have gone : Coherent ({ number := t.number, process := t.process, reply := some reply } ::
        (before ++ after)) x.next (x.log ++ [_]) :=
      front.advance (o := some _) (by rintro u ⟨⟩; rfl) rfl fun c => .answers reply c
    exact gone.perm List.perm_middle.symm
  | @goes i oracle before after t answer split free ready =>
    have front := Coherent.perm h (perm_of_split split)
    have gone := front.advance (o := Errand.next? t.number (t.process.resume x.session answer).2)
      (fun u hu => (Errand.of_mem_next? hu).1) rfl fun c => .goes c ready x.session
    exact (gone.perm List.perm_append_comm).entering _

theorem coherent_run (session : Session) (store : MemoryStore) (moves : List Move) :
    ((start session store).run moves).IsCoherent := by
  induction moves using List.reverseRecOn with
  | nil =>
    exact ⟨List.nodup_nil, fun t ht => absurd ht List.not_mem_nil,
      fun t ht => absurd ht List.not_mem_nil, fun n hn => absurd hn (Nat.not_lt_zero n),
      fun n _ => rfl⟩
  | append_singleton moves m ih =>
    rw [run_concat]
    exact ih.step m

/-- **Under the number of a process that has taken a step** is what the step has led to, and nothing
else. -/
theorem IsCoherent.led {x : Traffic} (h : x.IsCoherent) {t : Errand} {others : List Errand}
    (all : x.errands.Perm (t :: others)) {answer : t.process.need.Answer} {u : Errand}
    (hu : u ∈ (x.resumed others t answer).errands) (same : u.number = t.number) :
    (t.process.resume x.session answer).2 = .inl u.process := by
  have front := Coherent.perm h all
  rcases List.mem_append.mp hu with hu | hu
  · rcases List.mem_append.mp hu with other | led
    · have distinct := (List.nodup_cons.mp front.nodup).1
      exact absurd (List.mem_map.mpr ⟨u, other, same⟩) distinct
    · exact (Errand.of_mem_next? (Option.mem_toList.mp led)).2.1
  · obtain ⟨j, hj, rfl⟩ := List.mem_mapIdx.mp hu
    have below := front.below t List.mem_cons_self
    exact absurd same (Nat.ne_of_gt (Nat.lt_of_lt_of_le below (Nat.le_add_right _ _)))

variable {session : Session} {store : MemoryStore} {moves : List Move}

/-- **In every run, the events of a process are a course.** -/
theorem course_of_mem {n : Nat} {e : Event} (about : e.number? = some n)
    (he : e ∈ ((start session store).run moves).log) :
    ∃ o, Course n (own n ((start session store).run moves).log) o := by
  have h := coherent_run session store moves
  have there : e ∈ own n ((start session store).run moves).log :=
    List.mem_filter.mpr ⟨he, by simp [about]⟩
  rcases Nat.lt_or_ge n ((start session store).run moves).next with hn | hn
  · by_cases under : n ∈ ((start session store).run moves).errands.map (·.number)
    · obtain ⟨t, ht, rfl⟩ := List.mem_map.mp under
      exact ⟨_, h.underway t ht⟩
    · exact ⟨_, h.ended n hn under⟩
  · rw [h.unused n hn] at there
    cases there

/-- **A step of a process goes on from where its course has led.** -/
theorem course_of_log {n : Nat} {p : Process} {answer : p.need.Answer} {s : Session}
    {a b : List Event}
    (log : ((start session store).run moves).log = a ++ .stepped n p answer s :: b) :
    ∃ reply oracle, Course n (own n a) (some ⟨n, p, reply⟩) ∧
      p.need.answer? oracle reply = some answer := by
  obtain ⟨first, m, second, before, after, reply, oracle, rfl, rfl, -, split, -, ready, -⟩ :=
    goes_of_log rfl log
  refine ⟨reply, oracle, ?_, ready⟩
  exact (coherent_run session store first).underway ⟨n, p, reply⟩
    (split ▸ List.mem_append_right _ List.mem_cons_self)

/-- The process that waits for a call has no reply when the store carries it out. -/
theorem course_of_carried {n : Nat} {need : Need} {reply : need.Answer} {a b : List Event}
    (log : ((start session store).run moves).log = a ++ .carried n need reply :: b) :
    ∃ p, p.need = need ∧ Course n (own n a) (some ⟨n, p, none⟩) := by
  obtain ⟨first, m, second, rfl, rfl, does⟩ := eq_of_log rfl log
  have h := coherent_run session store first
  generalize (((start session store).run first).step m) = y at does
  generalize he : some (Event.carried n need reply) = e at does
  cases does with
  | @carries i before after t store' got split waits done =>
    obtain ⟨number, process, none_yet⟩ := t
    simp only [Option.some.injEq, Event.carried.injEq] at he
    obtain ⟨rfl, rfl, -⟩ := he
    obtain rfl : none_yet = none := waits
    refine ⟨process, rfl, h.underway ⟨n, process, none⟩ ?_⟩
    rw [split]
    exact List.mem_append_right _ List.mem_cons_self
  | _ => cases he

/-- Only a store of another kind answers. -/
theorem answered_not_mem (honest : ∀ m ∈ moves, m.isAnswer = false) (n : Nat) (need : Need)
    (reply : need.Answer) : .answered n need reply ∉ ((start session store).run moves).log := by
  intro there
  obtain ⟨a, b, log⟩ := List.append_of_mem there
  obtain ⟨first, m, second, rfl, -, does⟩ := eq_of_log rfl log
  have no := honest m (List.mem_append_right _ List.mem_cons_self)
  generalize (((start session store).run first).step m) = y at does
  generalize he : some (Event.answered n need reply) = e at does
  cases does with
  | answers i oracle split => cases no
  | _ => cases he

/-- **What a call of the store gives, the store has replied before.** -/
theorem carried_of_stepped (honest : ∀ m ∈ moves, m.isAnswer = false) {n : Nat} {p : Process}
    {answer : p.need.Answer} {s : Session} {a b : List Event} (waits : p.need.isStore = true)
    (log : ((start session store).run moves).log = a ++ .stepped n p answer s :: b) :
    .carried n p.need answer ∈ a := by
  obtain ⟨reply, oracle, course, ready⟩ := course_of_log log
  rw [Need.answer?_of_isStore waits] at ready
  refine List.mem_of_mem_filter (course.carried_of_reply (fun need reply there => ?_) _ rfl _ ready)
  have logged : .answered n need reply ∈ ((start session store).run moves).log := by
    rw [log]
    exact List.mem_append_left _ (List.mem_of_mem_filter there)
  exact answered_not_mem honest n need reply logged

end Traffic

end Folio
