import ReplicaRouter.Session.Basic

/-! # Background work

What happens by itself as the clock moves: the node's probe at its period, and what each live
transaction's deadline does to it.

* `Session.nextEvent?` is the earliest event up to an instant.
* `Session.fire` moves the clock to an event, never back, and lets it happen.
* `Session.advanceTo` fires events in order up to an instant and then moves the clock there. It
  leaves none (`Session.nextEvent?_advanceTo`): `Session.workload` bounds their number, since a
  probe is put off by a period each time and a deadline acts once (`Session.workload_fire`).
* `Session.happen` lets a single event that is due happen.

Events are due when their timers act, at whole milliseconds. The clock stops anywhere.
-/

namespace ReplicaRouter

/-- What can happen by itself. -/
inductive Event
  | probe
  | expire (id : Nat)
deriving Repr, DecidableEq

namespace Session

/-- When the node's next probe is due, if it has one. -/
def nextProbe? (s : Session) : Option Nat := s.node.bind Node.due?

/-- The events to come, each with the instant it is due. -/
def events (s : Session) : List (Nat × Event) :=
  (s.nextProbe?.map (·, Event.probe)).toList
    ++ s.transactions.zipIdx.filterMap fun (t, id) => t.wake?.map (·, Event.expire id)

/-- The earliest of several events, the first of those due at once. -/
def earliest : List (Nat × Event) → Option (Nat × Event)
  | [] => none
  | e :: rest =>
    match earliest rest with
    | none => some e
    | some e' => if e'.1 < e.1 then some e' else some e

/-- The earliest event up to an instant. -/
def nextEvent? (s : Session) (limit : Nat) : Option (Nat × Event) :=
  (earliest s.events).filter fun (due, _) => due ≤ limit

/-- Lets an event happen at the clock's reading. -/
def handle (s : Session) : Event → Session
  | .probe =>
    match s.node with
    | none => s
    | some n => { (s.probe n).2 with node := some (n.probed s.clock) }
  | .expire id => s.change id Transaction.expire

/-- Lets an event happen at the instant it is due, or now if that is past. -/
def fire (s : Session) (e : Nat × Event) : Session :=
  { s with clock := max s.clock e.1 }.handle e.2

/-- A bound on the events up to an instant. -/
def workload (s : Session) (limit : Nat) : Nat :=
  (s.nextProbe?.map fun due => limit + 1 - due).getD 0
    + s.transactions.countP fun t => t.wake?.isSome

/-- Fires at most a number of events up to an instant. -/
def fireUpTo (limit : Nat) : Nat → Session → Session
  | 0, s => s
  | n + 1, s =>
    match s.nextEvent? limit with
    | none => s
    | some e => fireUpTo limit n (s.fire e)

/-- Fires every event up to an instant, and moves the clock there. -/
def advanceTo (s : Session) (limit : Nat) : Session :=
  let s := fireUpTo limit (s.workload limit) s
  { s with clock := max s.clock limit }

def sleep (s : Session) (time : Duration) : Session := s.advanceTo (s.clock + time.nanos)

def settle (s : Session) : Session := s.sleep ⟨0⟩

/-- Lets one event happen, if it is due, and nothing else. -/
def happen (s : Session) (e : Event) : Session :=
  if s.events.any fun (due, e') => e' = e && due ≤ s.clock then s.handle e else s

/-- Moves the clock and nothing else. -/
def jump (s : Session) (time : Duration) : Session := { s with clock := s.clock + time.nanos }

/-! ## The bound on the work -/

theorem earliest_mem {l : List (Nat × Event)} {e : Nat × Event} (h : earliest l = some e) :
    e ∈ l := by
  induction l generalizing e with
  | nil => cases h
  | cons x rest ih =>
    simp only [earliest] at h
    split at h
    · cases h; exact .head _
    · rename_i e' he
      split at h
      · cases h; exact .tail _ (ih he)
      · cases h; exact .head _

/-- An event to come is the node's probe or a transaction's deadline, at its instant. -/
theorem mem_events {s : Session} {e : Nat × Event} :
    e ∈ s.events ↔ (e.2 = .probe ∧ ∃ n, s.node = some n ∧ n.due? = some e.1) ∨
      ∃ id t, e.2 = .expire id ∧ s.transactions[id]? = some t ∧ t.wake? = some e.1 := by
  obtain ⟨due, ev⟩ := e
  simp only [events, List.mem_append, Option.mem_toList, List.mem_filterMap, nextProbe?,
    Option.map_eq_some_iff, Option.bind_eq_some_iff, Prod.mk.injEq]
  refine or_congr ⟨?_, ?_⟩ ⟨?_, ?_⟩
  · rintro ⟨_, ⟨n, hn, hd⟩, rfl, rfl⟩
    exact ⟨rfl, n, hn, hd⟩
  · rintro ⟨rfl, n, hn, hd⟩
    exact ⟨due, ⟨n, hn, hd⟩, rfl, rfl⟩
  · rintro ⟨⟨t, id⟩, hm, _, hd, rfl, rfl⟩
    exact ⟨id, t, rfl, List.mem_zipIdx_iff_getElem?.1 hm, hd⟩
  · rintro ⟨id, t, rfl, ht, hd⟩
    exact ⟨(t, id), List.mem_zipIdx_iff_getElem?.2 ht, due, hd, rfl, rfl⟩

theorem nextEvent?_some {s : Session} {limit : Nat} {e : Nat × Event}
    (h : s.nextEvent? limit = some e) : e ∈ s.events ∧ e.1 ≤ limit := by
  simp only [nextEvent?, Option.filter_eq_some_iff, decide_eq_true_eq] at h
  exact ⟨earliest_mem h.1, h.2⟩

/-- Once the deadline has acted it does not act again by itself. -/
theorem wake?_expire {t : Transaction} (c : Cluster) : (t.expire c).1.wake? = none := by
  obtain ⟨server, deadline, expires, owned, phase⟩ := t
  rcases phase with ⟨pending, _ | _ | _⟩ | ending <;> rfl

/-- Every event fired leaves less work. -/
theorem workload_fire {s : Session} {limit : Nat} {e : Nat × Event}
    (h : s.nextEvent? limit = some e) : (s.fire e).workload limit < s.workload limit := by
  obtain ⟨hm, hle⟩ := nextEvent?_some h
  obtain ⟨due, ev⟩ := e
  rcases mem_events.1 hm with ⟨rfl, n, hn, hd⟩ | ⟨id, t, rfl, ht, hw⟩
  · obtain ⟨hc, hdue⟩ := Node.due?_eq_some.1 hd
    have hlater := n.le_due_probed (max s.clock due)
    have hpos := n.period_nanos_pos
    have hfire : s.fire (due, .probe) =
        { ({ s with clock := max s.clock due }.probe n).2 with
          node := some (n.probed (max s.clock due)) } := by
      simp only [fire, handle, hn]
    have hbefore : s.nextProbe? = some due := by rw [nextProbe?, hn, Option.bind_some, hd]
    have hafter : (s.fire (due, .probe)).nextProbe? =
        some (Timer.wake (n.probed (max s.clock due)).nextProbe) := by
      rw [hfire, nextProbe?, Option.bind_some]
      exact Node.due?_eq_some.2 ⟨hc, rfl⟩
    rw [workload, workload, hbefore, hafter, hfire, Option.map_some, Option.map_some,
      Option.getD_some, Option.getD_some]
    simp only [probe]
    omega
  · obtain ⟨hlt, hg⟩ := List.getElem?_eq_some_iff.1 ht
    have hpos : 0 < s.transactions.countP fun t => t.wake?.isSome :=
      List.countP_pos_iff.2 ⟨t, List.mem_of_getElem? ht, by rw [hw]; rfl⟩
    have hcount : (s.transactions.set id (t.expire s.cluster).1).countP
        (fun t => t.wake?.isSome) = (s.transactions.countP fun t => t.wake?.isSome) - 1 := by
      rw [List.countP_set hlt, hg, wake?_expire, hw]
      rfl
    have hafter : (s.fire (due, .expire id)).workload limit =
        (s.nextProbe?.map fun due => limit + 1 - due).getD 0 +
          ((s.transactions.countP fun t => t.wake?.isSome) - 1) := by
      rw [← hcount]
      simp only [fire, handle, change, ht]
      rfl
    rw [hafter, workload]
    omega

/-- Work done bounds the events fired, so none is left up to the instant. -/
theorem nextEvent?_fireUpTo (limit : Nat) :
    ∀ (n : Nat) (s : Session), s.workload limit ≤ n →
      (fireUpTo limit n s).nextEvent? limit = none
  | 0, s, h => by
    cases he : s.nextEvent? limit with
    | none => exact he
    | some e => have := workload_fire he; omega
  | n + 1, s, h => by
    simp only [fireUpTo]
    split
    · assumption
    · rename_i e he
      have := workload_fire he
      exact nextEvent?_fireUpTo limit n (s.fire e) (by omega)

/-- Advancing leaves no event up to the instant. -/
theorem nextEvent?_advanceTo (s : Session) (limit : Nat) :
    (s.advanceTo limit).nextEvent? limit = none :=
  nextEvent?_fireUpTo limit _ s (Nat.le_refl _)

end Session

end ReplicaRouter
