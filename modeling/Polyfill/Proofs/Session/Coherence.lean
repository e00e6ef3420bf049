import Mathlib.Data.Set.Card
import Polyfill.Proofs.Session.Firing
/-!
# Registries agree with their queues

As long as a registry is alive, its entries, the tasks in its queue and the callbacks that run fit
together at all times (`Machine.Coherent`): a timer waits exactly if its task is still in the queue,
a timer that has fired has no task left, and a timeout that has fired is registered only while its
own callback runs.  When a drain of the queue returns and no callback of the registry is running,
only intervals that have fired are left in it.
-/

namespace Polyfill.Session

namespace Machine

/-- The entries of a registry fit the tasks in its queue and the callbacks that run. -/
structure Coherent (m : Machine) (t : TimersId) : Prop where
  /-- Numbers are given out from one up. -/
  bounds : ∀ id x, (m.world.registry t).find? id = some x →
    1 ≤ id ∧ id ≤ (m.world.registry t).last
  /-- A timer waits, with its callback, exactly if it is registered and has one task queued. -/
  pending : ∀ id, (∃ kind c, (m.world.registry t).find? id = some ⟨kind, .pending c⟩) ↔
    (∃ x, (m.world.registry t).find? id = some x) ∧
      (timersIn (m.world.tasks (m.world.queueOf t))).count (t, id) = 1
  /-- A timer that has fired has no task and no callback. -/
  fired : ∀ id kind, (m.world.registry t).find? id = some ⟨kind, .fired⟩ →
    (t, id) ∉ timersIn (m.world.tasks (m.world.queueOf t))
  /-- A timeout that has fired is registered only while its own callback runs. -/
  running : ∀ id, (m.world.registry t).find? id = some ⟨.timeout, .fired⟩ →
    .settle t id .timeout ∈ m.stack
  /-- The tasks of the registry are in its queue only. -/
  queue : ∀ q id, (t, id) ∈ timersIn (m.world.tasks q) → q = m.world.queueOf t
  /-- They are queued in the order of their numbers, each once at most. -/
  sorted : (idsOf t (timersIn (m.world.tasks (m.world.queueOf t)))).Pairwise (· < ·)

end Machine

namespace World.Faithful

variable {w : World}

/-- The tasks queued for a registry, in the order of their numbers. -/
lemma idsOf_enqueuedOn (hf : w.Faithful) (t : TimersId) :
    idsOf t (timersIn (enqueuedOn (w.queueOf t) w.history)) = scheduledIds t w.history := by
  rw [← hf.order, w.idsOf_onQueue]
  rfl

/-- Tasks that are queued are sorted by their numbers. -/
lemma queuedIds_sorted (hf : w.Faithful) (t : TimersId) :
    (idsOf t (timersIn (w.tasks (w.queueOf t)))).Pairwise (· < ·) := by
  have hids := hf.idsOf_enqueuedOn t
  rw [hf.tasks, timersIn_append, idsOf_append, hf.ids] at hids
  have hsorted : (List.range' 1 (w.registry t).last).Pairwise (· < ·) := List.pairwise_lt_range'
  rw [← hids] at hsorted
  exact (List.pairwise_append.mp hsorted).2.1

/-- A registered timer has one of the numbers given out. -/
lemma bounds (hf : w.Faithful) {t : TimersId} {id : Nat} {x : Timer Callback}
    (h : (w.registry t).find? id = some x) : 1 ≤ id ∧ id ≤ (w.registry t).last := by
  rw [hf.entries] at h
  obtain ⟨c, hc⟩ := scheduled_of_life h
  have hmem := mem_scheduledIds.mpr ⟨x.kind, c, hc⟩
  rw [hf.ids, List.mem_range'_1] at hmem
  omega

/-- A timer that has fired has no task left. -/
lemma not_queued_of_fired (hf : w.Faithful) {t : TimersId} {id : Nat} {kind : TimerKind}
    (h : (w.registry t).find? id = some ⟨kind, .fired⟩) (q : QueueId) :
    .fire t id ∉ w.tasks q := by
  rw [hf.entries] at h
  obtain ⟨a, c, b, heq, -⟩ := of_life_fired hf.waiting h
  exact fun hmem => hf.not_fired_of_queued hmem c (by simp [heq])

/-- A task is queued once at most. -/
lemma count_queued (hf : w.Faithful) {t : TimersId} {id : Nat} {q : QueueId}
    (h : .fire t id ∈ w.tasks q) : (timersIn (w.tasks q)).count (t, id) = 1 := by
  have hd := hf.nodup_onQueue q
  rw [hf.order, hf.tasks, timersIn_append] at hd
  exact List.count_eq_one_of_mem (List.nodup_append.mp hd).2.1 (mem_timersIn.mpr h)

/-- A registry has as many timers as there are numbers under which one is registered. -/
lemma size_eq_ncard (hf : w.Faithful) {t : TimersId} {S : Set Nat}
    (hS : ∀ id, id ∈ S ↔ ∃ x, (w.registry t).find? id = some x) :
    (w.registry t).size = S.ncard := by
  have hkeys : S = ↑(w.registry t).keys.toFinset := by
    ext id
    rw [hS, List.coe_toFinset, Set.mem_ofPred_eq, Registry.mem_keys_iff]
  rw [hkeys, Set.ncard_coe_finset, List.toFinset_card_of_nodup (hf.keys t), Registry.keys,
    List.length_map]
  rfl

end World.Faithful

namespace Machine

variable {m m' : Machine}

/-- The callback of a timeout that has fired and is still registered is running. -/
lemma Consistent.settle_mem (hc : m.Consistent) {t : TimersId} {id : Nat}
    (h : (m.world.registry t).find? id = some ⟨.timeout, .fired⟩) :
    .settle t id .timeout ∈ m.stack := by
  have hl := h
  rw [hc.faithful.entries] at hl
  obtain ⟨a, c, b, heq, -, -, hns⟩ := of_life_fired hc.faithful.waiting hl
  rcases hc.returned a t id c b heq with hset | ⟨kind, hrun⟩
  · exact absurd hset (hns rfl)
  · obtain rfl : .timeout = kind := hc.kind_eq hrun h
    obtain ⟨frame, hframe, hf⟩ := List.mem_filterMap.mp hrun
    cases frame <;> cases hf
    exact hframe

/-- A registry that is alive is coherent with its queue and the callbacks that run. -/
lemma Consistent.coherent (hc : m.Consistent) {t : TimersId} (ha : m.alive t = true) :
    m.Coherent t := by
  have hf := hc.faithful
  refine ⟨fun id x hx => hf.bounds hx, fun id => ⟨?_, ?_⟩, ?_, fun id hx => hc.settle_mem hx, ?_,
    hf.queuedIds_sorted t⟩
  · rintro ⟨kind, c, hx⟩
    exact ⟨⟨_, hx⟩, hf.count_queued (hc.queued t ha id kind c hx)⟩
  · rintro ⟨⟨⟨kind, status⟩, hx⟩, hcount⟩
    cases status with
    | pending c => exact ⟨kind, c, hx⟩
    | fired =>
      have hmem := List.count_pos_iff.mp (hcount ▸ Nat.one_pos)
      exact absurd (mem_timersIn.mp hmem) (hf.not_queued_of_fired hx _)
  · exact fun id kind hx hmem => hf.not_queued_of_fired hx _ (mem_timersIn.mp hmem)
  · intro q id hmem
    exact (hf.queueOf_of_enqueued (hf.enqueued_of_queued (mem_timersIn.mp hmem))).symm

/-- The return of a drain leaves tasks and timers alone. -/
lemma still_of_return {q : QueueId} {n : Nat} {below : List Frame}
    (hs : m.stack = .drain q n :: below) (hn : m.next = some m') (hret : m'.stack = below) :
    ∃ es, World.Still m.world m'.world es := by
  obtain ⟨-, hm⟩ := eq_of_return hs hn hret
  have hlog : World.Still m.world (m.world.log (.drained q n)) _ := (World.Still.refl _).log rfl
  obtain ⟨e, hstill⟩ := still_report
    (m := { m with world := m.world.log (.drained q n), stack := below }) hlog "run"
    (Answer.data (.nat n))
  exact ⟨_, hm ▸ hstill⟩

/-- With an empty queue and no callback of the registry running, only fired intervals are left. -/
lemma Coherent.eq_of_empty {t : TimersId} (hc : m.Coherent t)
    (hq : m.world.tasks (m.world.queueOf t) = []) (hr : m.stack.any (runs t) = false) {id : Nat}
    {x : Timer Callback} (hx : (m.world.registry t).find? id = some x) :
    x = ⟨.interval, .fired⟩ := by
  obtain ⟨kind, status⟩ := x
  cases status with
  | pending c =>
    have hcount := ((hc.pending id).mp ⟨kind, c, hx⟩).2
    rw [hq] at hcount
    cases hcount
  | fired =>
    cases kind with
    | interval => rfl
    | timeout =>
      have hruns : m.stack.any (runs t) = true :=
        List.any_eq_true.mpr ⟨_, hc.running id hx, by simp [runs]⟩
      rw [hr] at hruns
      cases hruns

/-- At every point of every session, a registry that is alive is coherent with its queue and with
the callbacks that run.  When a drain of its queue returns while none of its callbacks is running,
what is registered are the intervals that have fired and were not cancelled since, and the size of
the registry is their number. -/
theorem alive_registry_coherent {entropy : Entropy} {script : List Step}
    (h : Reaches (start entropy script) m) {t : TimersId} (ha : m.alive t = true) :
    m.Coherent t ∧
    ∀ n below m₁, m.stack = .drain (m.world.queueOf t) n :: below → m.next = some m₁ →
      m₁.stack = below → below.any (runs t) = false →
      (∀ id x, (m₁.world.registry t).find? id = some x ↔
        x = ⟨.interval, .fired⟩ ∧ FiredInterval t id m₁.world.history) ∧
      (m₁.world.registry t).size = {id | FiredInterval t id m₁.world.history}.ncard := by
  have hcoherent := h.consistent.coherent ha
  refine ⟨hcoherent, fun n below m₁ hs hn hret hruns => ?_⟩
  have hempty := tasks_eq_nil_of_return hs hn hret
  have hnone : m.stack.any (runs t) = false := by simpa [hs, runs] using hruns
  obtain ⟨es, hstill⟩ := still_of_return hs hn hret
  have hf₁ := (h.move hn).consistent.faithful
  have hinterval : ∀ id, (m₁.world.registry t).find? id = some ⟨.interval, .fired⟩ ↔
      FiredInterval t id m₁.world.history := by
    intro id
    rw [hf₁.entries]
    exact life_interval_iff (hf₁.scheduledIds_nodup t) hf₁.waiting
  have hentries : ∀ id x, (m₁.world.registry t).find? id = some x ↔
      x = ⟨.interval, .fired⟩ ∧ FiredInterval t id m₁.world.history := by
    intro id x
    constructor
    · intro hx
      obtain rfl := hcoherent.eq_of_empty hempty hnone (hstill.registry t ▸ hx)
      exact ⟨rfl, (hinterval id).mp hx⟩
    · rintro ⟨rfl, hfired⟩
      exact (hinterval id).mpr hfired
  refine ⟨hentries, hf₁.size_eq_ncard fun id => ?_⟩
  simp [hentries]

/-- The outer drain of a session returns after an inner one has fired an interval. -/
theorem alive_registry_coherent_after_nested_drain :
    let m (n : Nat) : Machine := (start ⟨fun _ => 0, 0⟩ cancellingScript).after n
    (m 16).alive 0 = true ∧ (m 16).Coherent 0 ∧ (m 16).next = some (m 17) ∧
      FiredInterval 0 3 (m 17).world.history ∧
      {id | FiredInterval 0 id (m 17).world.history}.ncard = 1 := by
  intro m
  have ha : (m 16).alive 0 = true := rfl
  have hnext : (m 16).next = some (m 17) := rfl
  obtain ⟨hcoherent, hreturn⟩ := alive_registry_coherent (reaches_after _ 16 : Reaches _ (m 16)) ha
  obtain ⟨hentries, hsize⟩ := hreturn 1 [] (m 17) rfl hnext rfl rfl
  have hfired := (hentries 3 ⟨.interval, .fired⟩).mp rfl
  exact ⟨ha, hcoherent, hnext, hfired.2, hsize.symm⟩

end Machine

end Polyfill.Session
