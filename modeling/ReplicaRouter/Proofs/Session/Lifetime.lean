import ReplicaRouter.Proofs.Session.StatementLog

/-! # Lifetime

A transaction begun through a node has a deadline at most a second away, and nothing that is done
to it at or after its deadline reaches a log.

* `InTime`: whatever was done to a transaction was done before its deadline. Every move keeps it
  (`InTime.move`), because a deadline never changes and a change that does a deed finds it ahead.
* `map_origins`: a log's statements come from executions, each brought there by a commit.
* `Session.lifetime_run` puts them together.
-/

namespace ReplicaRouter

theorem Duration.granted_nanos (d : Duration) :
    d.granted.nanos = if 0 < d.nanos ∧ d.nanos ≤ perSecond then d.nanos else perSecond := by
  unfold granted maxRuntime
  by_cases h : d.nanos = 0 ∨ perSecond < d.nanos
  · rw [if_pos h, if_neg (by omega)]
  · rw [if_neg h, if_pos (by omega)]

theorem Deadline.passed_eq_false_iff {d : Deadline} {now : Nat} :
    d.passed now = false ↔ now < d.nanos := by
  unfold passed
  rw [decide_eq_false_iff_not, Nat.not_le]

/-! ## What was done in time -/

/-- Whatever was done to a transaction was done before its deadline. -/
def InTime (h : List Entry) (b : Books) : Prop :=
  ∀ e ∈ h, ∃ t, b.transactions[e.id]? = some t ∧ t.deadline.passed e.time = false

/-- Statements are executed and commits done only while the deadline is ahead. -/
theorem Change.in_time {now : Nat} {t t' : Transaction} {deed : Deed} {f : Account → Account}
    (hc : Change now t (some deed) t' f) : t.deadline.passed now = false := by
  cases hc with
  | execute statement ht hd => exact hd
  | commit ht hd => exact hd

theorem InTime.start : InTime [] .blank := nofun

theorem InTime.move {h e : List Entry} {b b' : Books} (hi : InTime h b) (hm : Move b e b') :
    InTime (h ++ e) b' := by
  intro x hx
  rcases List.mem_append.1 hx with hx | hx
  · obtain ⟨t, ht, hd⟩ := hi x hx
    obtain ⟨t', ht', hl⟩ := hm.later ht
    exact ⟨t', ht', by rw [hl.deadline]; exact hd⟩
  · cases hm with
    | pass => cases hx
    | enter => cases hx
    | @change i t t' deed f ht hc =>
      obtain ⟨d, hd, rfl⟩ := List.mem_map.1 hx
      obtain rfl : deed = some d := Option.mem_toList.1 hd
      refine ⟨t', (getElem?_set_of ht).2 (.inl ⟨rfl, rfl⟩), ?_⟩
      rw [hc.later.deadline]
      exact hc.in_time

/-! ## Where a log's statements come from -/

/-- The executions whose statements are in a log, each with the commit that brought it there, if
the log is that of the transactions at some places. -/
def origins (h : List Entry) (on : Nat → Bool) : List (Entry × Entry) :=
  (h.filter fun e => e.deed = .committed && on e.id).flatMap fun c =>
    (h.filter fun e => (e.executed? c.id).isSome).map (·, c)

theorem map_executed (id : Nat) :
    ∀ h : List Entry, (executed h id).map Deed.executed =
      (h.filter fun e => (e.executed? id).isSome).map (·.deed)
  | [] => rfl
  | ⟨time, i, .committed⟩ :: h => map_executed id h
  | ⟨time, i, .executed statement⟩ :: h => by
    have ih := map_executed id h
    by_cases hi : i = id
    · simp only [executed, Entry.executed?, List.filterMap_cons, List.filter_cons, hi, if_true,
        Option.isSome_some, List.map_cons]
      exact congrArg (_ :: ·) ih
    · simp only [executed, Entry.executed?, List.filterMap_cons, List.filter_cons, hi, if_false,
        Option.isSome_none, Bool.false_eq_true]
      exact ih

theorem filter_committed (on : Nat → Bool) :
    ∀ h : List Entry, (committed h).filter on =
      (h.filter fun e => e.deed = .committed && on e.id).map (·.id)
  | [] => rfl
  | ⟨time, i, .executed statement⟩ :: h => filter_committed on h
  | ⟨time, i, .committed⟩ :: h => by
    have ih := filter_committed on h
    simp only [committed, Entry.committed?, List.filterMap_cons, List.filter_cons, decide_true,
      Bool.true_and]
    by_cases hi : on i = true
    · simp only [hi, if_true, List.map_cons]
      exact congrArg (i :: ·) ih
    · simp only [hi, Bool.false_eq_true, if_false]
      exact ih

/-- The statements of a log are those of its origins. -/
theorem map_origins (h : List Entry) (on : Nat → Bool) :
    (((committed h).filter on).flatMap (executed h)).map Deed.executed =
      (origins h on).map (·.1.deed) := by
  rw [filter_committed, List.flatMap_map, List.map_flatMap, origins, List.map_flatMap]
  refine List.flatMap_congr fun c _ => ?_
  rw [map_executed, List.map_map]
  rfl

/-- An origin is an execution and a commit of one transaction, both among what was done. -/
theorem mem_origins {h : List Entry} {on : Nat → Bool} {o : Entry × Entry}
    (ho : o ∈ origins h on) :
    o.1 ∈ h ∧ o.2 ∈ h ∧ o.2.deed = .committed ∧ o.1.id = o.2.id ∧ on o.1.id = true := by
  obtain ⟨c, hc, ho⟩ := List.mem_flatMap.1 ho
  obtain ⟨e, he, rfl⟩ := List.mem_map.1 ho
  obtain ⟨hc, hcd⟩ := List.mem_filter.1 hc
  obtain ⟨he, hed⟩ := List.mem_filter.1 he
  rw [Bool.and_eq_true, decide_eq_true_eq] at hcd
  have hid : e.id = c.id := by
    unfold Entry.executed? at hed
    split at hed
    · cases hed
    · split at hed
      · assumption
      · cases hed
  exact ⟨he, hc, hcd.1, hid, hid ▸ hcd.2⟩

/-! ## Reachable sessions -/

namespace Session

theorem inTime_run (g : Generator) (offset : Int) (steps : List Step) :
    InTime ((fresh g offset).history steps) ((fresh g offset).run steps).2.books :=
  (run_moves steps (fresh g offset)).keep InTime.start InTime.move

/-- A commit is done only before the deadline. -/
theorem commit_done {s : Session} {id : Nat} {t : Transaction} (ht : s.transactions[id]? = some t)
    (h : (s.step (.commit id)).1 = .done) : t.deadline.passed s.clock = false := by
  simp only [step] at h
  rcases s.onOwner_eq id fun t => s.commit id t with hf | ⟨u, hu, -, -, hf⟩
  · rw [hf] at h; cases h
  obtain rfl : u = t := Option.some.inj (hu.symm.trans ht)
  rw [hf] at h
  simp only [commit, Transaction.commitFault?] at h
  rcases hp : u.phase with ⟨pending, loan⟩ | ending
  · rw [hp] at h
    cases hd : u.deadline.passed s.clock with
    | false => rfl
    | true => simp only [hd, if_true] at h; cases h
  · rw [hp] at h; cases h

/-- **A node's transaction lives for at most a second.** Its deadline is the runtime granted for the
requested one after its beginning, whatever happens next, and a commit is done only before it. So
every statement of a log was executed, and its transaction committed, before that transaction's
deadline. -/
theorem lifetime_run (g : Generator) (offset : Int) (steps : List Step) :
    let s := ((fresh g offset).run steps).2
    let h := (fresh g offset).history steps
    (∀ before requested after left, steps = before ++ .beginThrough requested :: after →
      let s₀ := ((fresh g offset).run before).2
      (s₀.step (.beginThrough requested)).1 = .begun left →
        ∃ (d : Nat) (t : Transaction), 0 < d ∧ d ≤ Duration.perSecond ∧
          d = (if 0 < requested.nanos ∧ requested.nanos ≤ Duration.perSecond then requested.nanos
            else Duration.perSecond) ∧
          left = d ∧ s.transactions[s₀.transactions.length]? = some t ∧ t.expires = true ∧
          t.deadline.nanos = s₀.clock + d) ∧
    (∀ id t, s.transactions[id]? = some t → (s.step (.commit id)).1 = .done →
      s.clock < t.deadline.nanos) ∧
    ∀ addr,
      let sources := origins h (isOn s.transactions addr)
      (s.cluster.get addr).statements.map .executed = sources.map (·.1.deed) ∧
        ∀ o ∈ sources, o.1 ∈ h ∧ o.2 ∈ h ∧ o.2.deed = .committed ∧ o.1.id = o.2.id ∧
          ∃ t, s.transactions[o.1.id]? = some t ∧ t.server = addr ∧
            o.1.time < t.deadline.nanos ∧
            o.2.time < t.deadline.nanos := by
  intro s h
  have htime := inTime_run g offset steps
  refine ⟨?_, fun id t ht hc => Deadline.passed_eq_false_iff.1 (commit_done ht hc), fun addr => ?_⟩
  · intro before requested after left hsteps s₀ hb
    obtain ⟨hleft, -⟩ := step_beginThrough hb
    obtain ⟨t, ht, he, hd⟩ := run_beginThrough hb after
    have hs : s = ((s₀.step (.beginThrough requested)).2.run after).2 := by
      show ((fresh g offset).run steps).2 = _
      rw [hsteps, run_append]
      rfl
    rw [← hs] at ht
    refine ⟨requested.granted.nanos, t, requested.granted_pos, requested.granted_le,
      requested.granted_nanos, hleft, ht, he, ?_⟩
    rw [hd]
    rfl
  · intro sources
    refine ⟨?_, fun o ho => ?_⟩
    · rw [← map_origins]
      exact congrArg (List.map Deed.executed) ((logOf_run g offset steps).log addr)
    · obtain ⟨h1, h2, hd, hid, hon⟩ := mem_origins ho
      obtain ⟨t, ht, hp⟩ := htime o.1 h1
      obtain ⟨u, hu, hq⟩ := htime o.2 h2
      obtain rfl : t = u := Option.some.inj (ht.symm.trans (hid ▸ hu))
      have hserver : t.server = addr := by
        simpa [isOn, show s.transactions[o.1.id]? = some t from ht] using hon
      exact ⟨h1, h2, hd, hid, t, ht, hserver, Deadline.passed_eq_false_iff.1 hp,
        Deadline.passed_eq_false_iff.1 hq⟩

/-- A request for five seconds is granted one. -/
theorem lifetime_run_granted :
    let before := [Step.build "\x7b\"master\":\x7b\"addr\":\"m:1\"\x7d\x7d", .jump (.ofMillis 3)]
    let after := [Step.execute 0 "a", .jump ⟨999999999⟩, .commit 0]
    let s₀ := ((fresh ⟨0⟩ 0).run before).2
    let s := ((fresh ⟨0⟩ 0).run (before ++ .beginThrough ⟨5000000000⟩ :: after)).2
    (s₀.step (.beginThrough ⟨5000000000⟩)).1 = .begun 1000000000 ∧
      (s.cluster.get "m:1").statements = ["a"] ∧
      ∃ t, s.transactions[s₀.transactions.length]? = some t ∧ t.expires = true ∧
        t.deadline.nanos = s₀.clock + 1000000000 := by
  intro before after s₀ s
  have hb : (s₀.step (.beginThrough ⟨5000000000⟩)).1 = .begun 1000000000 := by
    unfold s₀ before; decide +kernel
  obtain ⟨d, t, -, -, -, hd, ht, he, hn⟩ := (lifetime_run ⟨0⟩ 0 _).1 before _ after _ rfl hb
  obtain rfl : d = 1000000000 := by omega
  refine ⟨hb, ?_, t, ht, he, hn⟩
  unfold s before after; decide +kernel

end Session

end ReplicaRouter
