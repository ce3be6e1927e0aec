import ReplicaRouter.Proofs.Session.Closing
import ReplicaRouter.Proofs.Session.Independence
import ReplicaRouter.Proofs.Session.Lifetime
import ReplicaRouter.Proofs.Session.Schedule

/-! # Expiries

A deadline ends its transaction neither early nor late. `Session.expiries` are the expiries of a
run, each the transaction's place with the instant, and they are read off the sessions
that the run passes through: what has expired in one of them and had not in the one before.

* `Lapse`: a list accounts for what expires between two sessions. Each event and each step has its
  own (`Session.lapse_to`), they add up (`Lapse.append`), and from a fresh session the list is all
  there is to say about what has expired, so nothing expires twice (`Session.lapse_run`).
* `Session.mem_expiries_during`: what is open when a time begins to pass and due in it expires in
  it, when the timer of its deadline acts, or at once if the clock is past that.
* `Session.overdue_finished`: once what is due has happened, an overdue transaction that is still
  open has its connection away. In a run whose only loans are holds there is none
  (`Session.unlent_run`).
-/

namespace ReplicaRouter

/-- The deadline ended the transaction. -/
def Transaction.isExpired (t : Transaction) : Bool := t.phase = .finished .expired

theorem Transaction.isExpired_iff {t : Transaction} :
    t.isExpired = true ↔ t.phase = .finished .expired := decide_eq_true_iff

namespace Session

/-- The places of the transactions that their deadlines ended. -/
def expired (s : Session) : List Nat :=
  (List.range s.transactions.length).filter fun id =>
    s.transactions[id]?.any Transaction.isExpired

/-- What has expired in a session and had not in the one before. -/
def expiriesTo (s s' : Session) : List (Nat × Nat) :=
  (s'.expired.filter (· ∉ s.expired)).map (s'.clock, ·)

end Session

/-- The notes of what expires and when. -/
def Notes.expiries : Notes (Nat × Nat) where
  event s e := s.expiriesTo (s.fire e)
  step s step := s.expiriesTo (s.step step).2

theorem Notes.expiries_event (s : Session) (e : Nat × Event) :
    expiries.event s e = s.expiriesTo (s.fire e) := rfl

namespace Session

/-- The expiries in a run, in order, each with its instant. -/
def expiries (s : Session) (steps : List Step) : List (Nat × Nat) :=
  Notes.expiries.ofRun s steps

theorem mem_expired {s : Session} {id : Nat} :
    id ∈ s.expired ↔ ∃ t, s.transactions[id]? = some t ∧ t.phase = .finished .expired := by
  rw [expired, List.mem_filter, List.mem_range, Option.any_eq_true]
  constructor
  · rintro ⟨-, t, ht, hx⟩
    exact ⟨t, ht, Transaction.isExpired_iff.1 hx⟩
  · rintro ⟨t, ht, hx⟩
    exact ⟨(List.getElem?_eq_some_iff.1 ht).1, t, ht, Transaction.isExpired_iff.2 hx⟩

theorem nodup_expired (s : Session) : s.expired.Nodup := List.nodup_range.filter _

theorem mem_expiriesTo {s s' : Session} {time id : Nat} :
    (time, id) ∈ s.expiriesTo s' ↔ time = s'.clock ∧ id ∈ s'.expired ∧ id ∉ s.expired := by
  simp only [expiriesTo, List.mem_map, List.mem_filter, decide_eq_true_eq, Prod.mk.injEq]
  constructor
  · rintro ⟨_, h, rfl, rfl⟩
    exact ⟨rfl, h⟩
  · rintro ⟨rfl, h⟩
    exact ⟨id, h, rfl, rfl⟩

/-- What is open has not expired. -/
theorem not_mem_expired {s : Session} {id : Nat} {t : Transaction} {pending : List String}
    {loan : Loan} (ht : s.transactions[id]? = some t) (hp : t.phase = .live pending loan) :
    id ∉ s.expired := by
  intro hid
  obtain ⟨u, hu, hup⟩ := mem_expired.1 hid
  obtain rfl : t = u := Option.some.inj (ht.symm.trans hu)
  cases hp.symm.trans hup

/-- What has expired stays so. -/
theorem expired_subset {s s' : Session} {h : List Entry} (hm : Moves s.books h s'.books) :
    s.expired ⊆ s'.expired := by
  intro id hid
  obtain ⟨t, ht, hx⟩ := mem_expired.1 hid
  obtain ⟨t', ht', hl⟩ := hm.later ht
  exact mem_expired.2 ⟨t', ht', hl.finished _ hx⟩

/-- Every transaction's deadline has had to do with it only once it had passed. -/
def Timely (s : Session) : Prop :=
  ∀ (id : Nat) (t : Transaction), s.transactions[id]? = some t → t.Timely s.clock

theorem Timely.moves {s s' : Session} {h : List Entry} (hs : s.Timely)
    (hm : Moves s.books h s'.books) : s'.Timely :=
  hm.each (P := fun now t => t.Timely now) (fun hn h => h.mono hn) ⟨nofun, nofun, nofun⟩
    Change.timely hs

end Session

/-! ## What accounts for what expires -/

/-- A list of expiries accounts for what expires between two sessions: together with what had
expired it is what has, and each of its transactions expired once its deadline had passed. -/
structure Lapse (s : Session) (l : List (Nat × Nat)) (s' : Session) : Prop where
  moves : ∃ h, Moves s.books h s'.books
  perm : (s.expired ++ l.map (·.2)).Perm s'.expired
  due : ∀ x ∈ l, ∃ t, s'.transactions[x.2]? = some t ∧ t.phase = .finished .expired ∧
    t.expires = true ∧ t.deadline.passed x.1 = true

namespace Lapse

variable {s s' s'' : Session} {l l' : List (Nat × Nat)}

theorem refl (s : Session) : Lapse s [] s :=
  ⟨⟨_, .refl⟩, by rw [List.map_nil, List.append_nil], nofun⟩

theorem append (h : Lapse s l s') (h' : Lapse s' l' s'') : Lapse s (l ++ l') s'' where
  moves :=
    have ⟨_, hm⟩ := h.moves
    have ⟨_, hm'⟩ := h'.moves
    ⟨_, hm.trans hm'⟩
  perm := by
    rw [List.map_append, ← List.append_assoc]
    exact (h.perm.append_right _).trans h'.perm
  due x hx := by
    obtain hx | hx := List.mem_append.1 hx
    · obtain ⟨t, ht, hp, he, hd⟩ := h.due x hx
      obtain ⟨_, hm⟩ := h'.moves
      obtain ⟨t', ht', hl⟩ := hm.later ht
      exact ⟨t', ht', hl.finished _ hp, hl.expires.trans he, by rw [hl.deadline]; exact hd⟩
    · exact h'.due x hx

theorem timely (h : Lapse s l s') (hs : s.Timely) : s'.Timely :=
  have ⟨_, hm⟩ := h.moves
  hs.moves hm

/-- Nothing expires twice. -/
theorem nodup (h : Lapse s l s') : (l.map (·.2)).Nodup :=
  (List.nodup_append.1 (h.perm.nodup_iff.2 s'.nodup_expired)).2.1

/-- What is finished does not expire any more. -/
theorem not_mem_of_finished (h : Lapse s l s') {id : Nat} {t : Transaction} {ending : Ending}
    (ht : s.transactions[id]? = some t) (hp : t.phase = .finished ending) :
    id ∉ l.map (·.2) := by
  intro hid
  obtain ⟨_, hm⟩ := h.moves
  obtain ⟨t', ht', hl⟩ := hm.later ht
  have hx : id ∈ s'.expired := h.perm.mem_iff.1 (List.mem_append_right _ hid)
  obtain ⟨u, hu, hxp⟩ := Session.mem_expired.1 hx
  obtain rfl : t' = u := Option.some.inj (ht'.symm.trans hu)
  obtain rfl : ending = .expired :=
    Phase.finished.inj ((hl.finished ending hp).symm.trans hxp)
  have hdisjoint := (List.nodup_append.1 (h.perm.nodup_iff.2 s'.nodup_expired)).2.2
  exact hdisjoint id (Session.mem_expired.2 ⟨t, ht, hp⟩) id hid rfl

end Lapse

namespace Session

theorem lapse_to {s s' : Session} {h : List Entry} (hs : s.Timely)
    (hm : Moves s.books h s'.books) : Lapse s (s.expiriesTo s') s' where
  moves := ⟨h, hm⟩
  perm := by
    have hold : s.expired.Perm (s'.expired.filter (· ∈ s.expired)) := by
      refine (List.perm_ext_iff_of_nodup s.nodup_expired (s'.nodup_expired.filter _)).2 fun id => ?_
      rw [List.mem_filter, decide_eq_true_iff]
      exact ⟨fun hid => ⟨expired_subset hm hid, hid⟩, fun hid => hid.2⟩
    have hnew : (s.expiriesTo s').map (·.2) =
        s'.expired.filter fun id => !decide (id ∈ s.expired) := by
      simp only [expiriesTo, List.map_map, Function.comp_def, List.map_id', decide_not]
    rw [hnew]
    exact (hold.append_right _).trans (List.filter_append_perm _ _)
  due x hx := by
    obtain ⟨id, hid, rfl⟩ := List.mem_map.1 hx
    obtain ⟨t, ht, hp⟩ := mem_expired.1 (List.mem_filter.1 hid).1
    obtain ⟨he, hd⟩ := (hs.moves hm id t ht).expired hp
    exact ⟨t, ht, hp, he, hd⟩

/-- The clock passes and nothing expires. -/
theorem lapse_pass {s : Session} {now : Nat} (h : s.clock ≤ now) :
    Lapse s [] { s with clock := now } :=
  ⟨⟨_, .single (.pass (b := s.books) h)⟩, by rw [List.map_nil, List.append_nil]; rfl, nofun⟩

theorem lapse_keeps : Notes.expiries.Keeps (fun _ => True) fun s l s' =>
    s.Timely → Lapse s l s' where
  refl s _ := .refl s
  append h h' hs := (h hs).append (h' ((h hs).timely hs))
  event he hs := lapse_to hs (fire_moves (nextEvent?_some he).1)
  pass h _ := lapse_pass h
  step s {step} _ _ sleep hs := by
    cases step with
    | sleep time => exact sleep time hs
    | settle => exact sleep ⟨0⟩ hs
    | _ => exact lapse_to hs (s.step_moves _)

/-- The expiries of a run account for what expires in it. -/
theorem lapse_run {s : Session} (hs : s.Timely) (steps : List Step) :
    Lapse s (s.expiries steps) (s.run steps).2 :=
  lapse_keeps.ofRun (forall_unheld (fun _ _ _ _ _ _ => trivial) fun _ _ => trivial) hs

theorem timely_fresh (g : Generator) (offset : Int) : (fresh g offset).Timely := by
  intro id t ht
  cases ht

/-! ## Rollbacks -/

theorem countP_range_getElem? (p : Transaction → Bool) (l : List Transaction) :
    (List.range l.length).countP (fun id => l[id]?.any p) = l.countP p := by
  induction l with
  | nil => rfl
  | cons t l ih =>
    rw [List.length_cons, List.range_succ_eq_map, List.countP_cons, List.countP_map,
      List.countP_cons, ← ih]
    rfl

theorem countP_expired (s : Session) (addr : String) :
    s.expired.countP (isOn s.transactions addr) =
      (onServer addr s.transactions).countP Transaction.isExpired := by
  rw [expired, List.countP_filter, onServer, List.countP_filter, ← countP_range_getElem?]
  congr 1
  funext id
  rw [isOn]
  rcases s.transactions[id]? with _ | t
  · rfl
  · simp only [Option.any_some, Bool.and_comm]

/-- The expiries on a server are its expired transactions. -/
theorem countP_of_lapse {g : Generator} {offset : Int} {s : Session} {l : List (Nat × Nat)}
    (h : Lapse (fresh g offset) l s) (addr : String) :
    l.countP (fun x => isOn s.transactions addr x.2) =
      (onServer addr s.transactions).countP Transaction.isExpired := by
  calc l.countP (fun x => isOn s.transactions addr x.2)
      = (l.map (·.2)).countP (isOn s.transactions addr) := by rw [List.countP_map]; rfl
    _ = s.expired.countP (isOn s.transactions addr) := h.perm.countP_eq _
    _ = (onServer addr s.transactions).countP Transaction.isExpired := countP_expired s addr

theorem sum_rollbacks (l : List Transaction) :
    (l.map Transaction.rollbacks).sum =
      l.countP (·.phase = .finished .rolledBack) + l.countP Transaction.isExpired := by
  induction l with
  | nil => rfl
  | cons t l ih =>
    have ht : t.rollbacks = (if t.phase = .finished .rolledBack then 1 else 0) +
        if t.isExpired then 1 else 0 := by
      unfold Transaction.rollbacks Transaction.isExpired
      rcases t.phase with ⟨pending, loan⟩ | _ | _ | _ | _ <;> simp
    simp only [List.map_cons, List.sum_cons, List.countP_cons, ih, ht, decide_eq_true_eq]
    omega

/-! ## None missed -/

theorem getElem?_sleep_of_home {s : Session} {id : Nat} {t : Transaction} {pending : List String}
    {time : Duration} (ht : s.transactions[id]? = some t) (he : t.expires = true)
    (hp : t.phase = .live pending .home) (hd : t.deadline.wake ≤ s.clock + time.nanos) :
    (s.sleep time).transactions[id]? = some { t with phase := .finished .expired } := by
  rw [← Transaction.upTo_of_home he hd hp]
  exact getElem?_advanceTo ht _

/-- A deadline that comes while the connection is away waits. -/
theorem getElem?_sleep_of_lent {s : Session} {id : Nat} {t : Transaction} {pending : List String}
    {time : Duration} (ht : s.transactions[id]? = some t) (he : t.expires = true)
    (hp : t.phase = .live pending .lent) (hd : t.deadline.wake ≤ s.clock + time.nanos) :
    (s.sleep time).transactions[id]? = some { t with phase := .live pending .awaited } := by
  have hup : t.upTo (s.clock + time.nanos) = { t with phase := .live pending .awaited } := by
    have hwake : t.wake? = some t.deadline.wake := by
      unfold Transaction.wake?
      rw [hp]
      exact if_pos he
    unfold Transaction.upTo
    rw [hwake, Option.any_some, decide_eq_true hd, if_pos rfl]
    simp only [Transaction.expire, hp]
  rw [← hup]
  exact getElem?_advanceTo ht _

/-- A connection that comes back to a deadline that waits for it makes it act at once. -/
theorem mem_expiries_giveBack {s : Session} {id : Nat} {t : Transaction} {pending : List String}
    (ht : s.transactions[id]? = some t) (ho : t.owned = true)
    (hp : t.phase = .live pending .awaited) :
    (s.clock, id) ∈ Notes.expiries.ofStep s (.giveBack id) := by
  have hi := (List.getElem?_eq_some_iff.1 ht).1
  have hstep : (s.step (.giveBack id)).2 = s.giveBack id := by
    rw [step_giveBack_owned ⟨t, ht, ho⟩]
  have hback : (s.giveBack id).transactions[id]? = some { t with phase := .finished .expired } := by
    simp only [giveBack, change, ht, put, List.getElem?_set_self hi, Transaction.giveBack,
      Transaction.finish, hp]
  show (s.clock, id) ∈ s.expiriesTo (s.step (.giveBack id)).2
  rw [hstep, mem_expiriesTo, clock_giveBack]
  exact ⟨rfl, mem_expired.2 ⟨_, hback, rfl⟩, not_mem_expired ht hp⟩

/-- While a time passes, what is open and due in it expires when it is due, or at once if it was due
before. -/
theorem mem_expiries_upTo {limit id : Nat} {t : Transaction} {pending : List String}
    (he : t.expires = true) (hp : t.phase = .live pending .home)
    (hd : t.deadline.wake ≤ limit) :
    ∀ (fuel : Nat) {s : Session}, s.workload limit ≤ fuel → s.transactions[id]? = some t →
      (max s.clock t.deadline.wake, id) ∈ Notes.expiries.upTo limit fuel s
  | fuel, s, hfuel, ht => by
    have hm : (t.deadline.wake, Event.expire id) ∈ s.events :=
      mem_events_expire.2 (by rw [ht, Option.bind_some, Transaction.wake?_of_home he hp])
    rcases hn : s.nextEvent? limit with _ | e
    · exact absurd (lt_of_nextEvent?_none hn hm) (Nat.not_lt.2 hd)
    have hless := workload_fire hn
    cases fuel with
    | zero => omega
    | succ fuel =>
      simp only [Notes.upTo, Notes.expiries_event, hn]
      rw [List.mem_append]
      have hf : (s.fire e).transactions[id]? =
          some (if e.2 = .expire id then (t.expire {}).1 else t) :=
        getElem?_handle (s := { s with clock := max s.clock e.1 }) ht e.2
      by_cases hx : e.2 = .expire id
      · left
        rw [if_pos hx] at hf
        have hwake : e.1 = t.deadline.wake := by
          have hm' : (e.1, Event.expire id) ∈ s.events := hx ▸ (nextEvent?_some hn).1
          exact Option.some.inj ((mem_events_expire.1 hm').symm.trans (mem_events_expire.1 hm))
        have hexpired : (t.expire {}).1.phase = .finished .expired := by
          simp only [Transaction.expire, Transaction.finish, hp]
        exact mem_expiriesTo.2
          ⟨by rw [clock_fire, hwake], mem_expired.2 ⟨_, hf, hexpired⟩, not_mem_expired ht hp⟩
      · right
        rw [if_neg hx] at hf
        -- the event fired was due no later, so the clock is not past the deadline on its account
        have hle : e.1 ≤ t.deadline.wake := fired_le hn hm
        have hnow : max (s.fire e).clock t.deadline.wake = max s.clock t.deadline.wake := by
          rw [clock_fire]
          omega
        rw [← hnow]
        exact mem_expiries_upTo he hp hd fuel (by omega) hf

theorem mem_expiries_during {s : Session} {id : Nat} {t : Transaction} {pending : List String}
    {time : Duration} (ht : s.transactions[id]? = some t) (he : t.expires = true)
    (hp : t.phase = .live pending .home) (hd : t.deadline.wake ≤ s.clock + time.nanos) :
    (max s.clock t.deadline.wake, id) ∈ Notes.expiries.during s time :=
  mem_expiries_upTo he hp hd _ (Nat.le_refl _) ht

/-- What is due has happened, so what is still open and overdue is not the transaction's to end. -/
theorem overdue_finished {s : Session} {limit : Nat} {t : Transaction}
    (ht : t ∈ (s.advanceTo limit).transactions) (he : t.expires = true)
    (hd : t.deadline.wake ≤ limit) (hl : t.isLent = false) :
    ∃ ending, t.phase = .finished ending := by
  rw [transactions_advanceTo] at ht
  obtain ⟨u, -, rfl⟩ := List.mem_map.1 ht
  rcases hp : (u.upTo limit).phase with ⟨pending, loan⟩ | ending
  · have hend := Transaction.upTo_of_home he hd (live_home hl hp)
    rw [Transaction.upTo_upTo (Nat.le_refl _)] at hend
    rw [hend] at hp
    cases hp
  · exact ⟨ending, rfl⟩

end Session

/-! ## Loans -/

namespace Transaction

theorem isLent_expire (t : Transaction) (c : Cluster) : (t.expire c).1.isLent = t.isLent := by
  obtain ⟨server, deadline, expires, owned, phase⟩ := t
  rcases phase with ⟨pending, _ | _ | _⟩ | ending <;> rfl

theorem isLent_upTo (t : Transaction) (limit : Nat) : (t.upTo limit).isLent = t.isLent := by
  unfold upTo
  split
  · exact t.isLent_expire {}
  · rfl

theorem isLent_execute {t t' : Transaction} {now : Nat} {statement : String}
    (h : t.execute now statement = .ok t') : t'.isLent = t.isLent := by
  unfold execute at h
  rcases hp : t.phase with ⟨pending, loan⟩ | ending <;> rw [hp] at h <;> simp only at h
  · split at h
    · cases h
    · cases h
      unfold isLent
      rw [hp]
      cases loan <;> rfl
  · cases h

theorem isLent_finish {t : Transaction} (hl : t.isLent = false) (c : Cluster) (ending : Ending) :
    (t.finish c ending).1.isLent = false := by
  obtain ⟨server, deadline, expires, owned, phase⟩ := t
  rcases phase with ⟨pending, loan⟩ | e
  · cases ending <;> rfl
  · rfl

theorem isLent_giveBack (t : Transaction) (c : Cluster) : (t.giveBack c).1.isLent = false := by
  obtain ⟨server, deadline, expires, owned, phase⟩ := t
  rcases phase with ⟨pending, _ | _ | _⟩ | ending <;> rfl

end Transaction

namespace Session

/-- Only the connections of transactions at some places are away. -/
def LentWithin (p : Nat → Prop) (s : Session) : Prop :=
  ∀ (id : Nat) (t : Transaction), s.transactions[id]? = some t → t.isLent = true → p id

section
variable {p : Nat → Prop} {s : Session}

theorem LentWithin.congr {s' : Session} (h : s.LentWithin p)
    (ht : s'.transactions = s.transactions) : s'.LentWithin p := by
  intro id t
  rw [ht]
  exact h id t

theorem LentWithin.put {i : Nat} {t t' : Transaction} (h : s.LentWithin p)
    (ht : s.transactions[i]? = some t) (hl : t'.isLent = true → p i) :
    (s.put i t').LentWithin p := by
  intro id u hu hul
  rcases (getElem?_set_of ht).1 hu with ⟨rfl, rfl⟩ | ⟨-, hu⟩
  · exact hl hul
  · exact h id u hu hul

theorem LentWithin.change {i : Nat} {f : Transaction → Cluster → Transaction × Cluster}
    (h : s.LentWithin p)
    (hl : ∀ t, s.transactions[i]? = some t → (f t s.cluster).1.isLent = true → p i) :
    (s.change i f).LentWithin p := by
  unfold Session.change
  split
  · exact h
  · rename_i t ht
    exact h.put ht (hl t ht)

theorem LentWithin.sleep (h : s.LentWithin p) (time : Duration) : (s.sleep time).LentWithin p := by
  intro id t ht hl
  rw [Session.sleep, transactions_advanceTo, List.getElem?_map, Option.map_eq_some_iff] at ht
  obtain ⟨u, hu, rfl⟩ := ht
  rw [Transaction.isLent_upTo] at hl
  exact h id u hu hl

theorem LentWithin.executeAt (h : s.LentWithin p) (id : Nat) (statement : String) :
    (s.executeAt id statement).2.LentWithin p := by
  unfold Session.executeAt
  split
  · exact h
  rename_i t ht
  unfold Session.execute
  split
  · exact h
  rename_i t' hx
  exact h.put ht fun hl => h id t ht (by rw [← Transaction.isLent_execute hx]; exact hl)

theorem LentWithin.giveBack {id : Nat} (h : s.LentWithin fun i => p i ∨ i = id) :
    (s.giveBack id).LentWithin p := by
  intro i t ht hl
  unfold Session.giveBack Session.change at ht
  rcases hu : s.transactions[id]? with _ | u
  · simp only [hu] at ht
    obtain hi | rfl := h i t ht hl
    · exact hi
    · cases hu.symm.trans ht
  · simp only [hu] at ht
    rcases (getElem?_set_of hu).1 ht with ⟨rfl, rfl⟩ | ⟨hne, ht⟩
    · exact absurd hl (by rw [Transaction.isLent_giveBack]; exact Bool.false_ne_true)
    · exact (h i t ht hl).resolve_right hne

/-- A hold gives back what it takes. -/
theorem LentWithin.hold (h : s.LentWithin p) {id : Nat} {t : Transaction}
    (ht : s.transactions[id]? = some t) (before : String) (time : Duration) (after : String) :
    (s.hold id t before time after).2.LentWithin p := by
  rcases s.hold_eq id t before time after with ⟨why, heq⟩ | ⟨s₁, hlend, heq⟩
  · rw [heq]
    exact h
  have h₁ : s₁.LentWithin fun i => p i ∨ i = id := by
    have hwide : s.LentWithin fun i => p i ∨ i = id := fun i u hu hl => .inl (h i u hu hl)
    have hs₁ : (s.lend id t).2 = s₁ := congrArg Prod.snd hlend
    rw [← hs₁]
    unfold lend
    split
    · exact hwide
    · exact hwide.put ht fun _ => .inr rfl
  rw [heq]
  exact ((((h₁.executeAt id before).sleep time).executeAt id after).giveBack).sleep ⟨0⟩

theorem LentWithin.beginOn (h : s.LentWithin p) (server : String) (runtime : Duration)
    (expires : Bool) : (s.beginOn server runtime expires).2.LentWithin p := by
  unfold Session.beginOn
  split
  · exact h
  · intro id t ht hl
    rcases getElem?_concat.1 ht with ht | ⟨-, rfl⟩
    · exact h id t ht hl
    · cases hl

theorem LentWithin.onTransaction {id : Nat} {f : Transaction → Answer × Session}
    (h : s.LentWithin p) (hf : ∀ t, s.transactions[id]? = some t → (f t).2.LentWithin p) :
    (s.onTransaction id f).2.LentWithin p := by
  obtain heq | ⟨t, ht, -, heq⟩ := s.onTransaction_eq id f <;> rw [heq]
  · exact h
  · exact hf t ht

theorem LentWithin.onOwner {id : Nat} {f : Transaction → Answer × Session} (h : s.LentWithin p)
    (hf : ∀ t, s.transactions[id]? = some t → t.isLent = false → (f t).2.LentWithin p) :
    (s.onOwner id f).2.LentWithin p := by
  obtain heq | ⟨t, ht, -, hl, heq⟩ := s.onOwner_eq id f <;> rw [heq]
  · exact h
  · exact hf t ht hl

/-- Nothing but a loan sends a connection away for longer than a step. -/
theorem LentWithin.step (h : s.LentWithin p) {step : Step} (hs : ∀ id, step ≠ .lend id) :
    (s.step step).2.LentWithin p := by
  by_cases ha : step.isAside = true
  · exact h.congr (congrArg Books.transactions (s.books_step_of_isAside ha))
  have finish : ∀ {id t} ending, s.transactions[id]? = some t → t.isLent = false →
      (s.finish id ending).LentWithin p := by
    intro id t ending ht hl
    refine h.change fun u hu hul => ?_
    obtain rfl : t = u := Option.some.inj (ht.symm.trans hu)
    rw [Transaction.isLent_finish hl] at hul
    cases hul
  cases step with
  | sleep time => exact h.sleep time
  | settle => exact h.sleep ⟨0⟩
  | jump => exact h
  | happen e =>
    show (s.happen e).LentWithin p
    obtain ⟨_, -, -, heq⟩ | ⟨-, heq⟩ := s.happen_cases e <;> rw [heq]
    · cases e with
      | probe => exact h.congr (congrArg Books.transactions s.books_handle_probe)
      | expire id =>
        refine h.change fun t ht hl => h id t ht ?_
        rwa [Transaction.isLent_expire] at hl
    · exact h
  | beginOn server runtime =>
    have hb := h.beginOn server runtime false
    simp only [Session.step]
    split <;> rename_i heq <;> rw [heq] at hb <;> exact hb
  | beginThrough requested =>
    simp only [Session.step, onNode]
    split
    · exact h
    · unfold beginThrough
      split
      · exact h
      · rename_i server _
        have hb := h.beginOn server requested.granted true
        split <;> rename_i heq <;> rw [heq] at hb <;> exact hb
  | execute id statement =>
    refine h.onTransaction fun t ht => ?_
    have hx := h.executeAt id statement
    simp only [Session.executeAt, ht] at hx
    exact hx
  | lend id => exact absurd rfl (hs id)
  | giveBack id =>
    exact h.onTransaction fun _ _ =>
      LentWithin.giveBack fun i t ht hl => .inl (h i t ht hl)
  | hold id before time after => exact h.onOwner fun t ht _ => h.hold ht before time after
  | commit id =>
    refine h.onOwner fun t ht hl => ?_
    unfold commit
    split <;> exact finish _ ht hl
  | rollBack id =>
    refine h.onOwner fun t ht hl => ?_
    unfold rollBack
    split
    · exact h
    · exact finish _ ht hl
  | disown id => exact h.onOwner fun t ht _ => h.put ht fun hl => h id t ht hl
  | _ => exact absurd rfl ha

end

/-- Where all loans are holds, no connection is away between two steps. -/
theorem unlent_run (g : Generator) (offset : Int) {steps : List Step}
    (hs : ∀ step ∈ steps, ∀ id, step ≠ .lend id) :
    ∀ t ∈ ((fresh g offset).run steps).2.transactions, t.isLent = false := by
  intro t ht
  obtain ⟨id, hid⟩ := List.getElem?_of_mem ht
  have hnone : ((fresh g offset).run steps).2.LentWithin fun _ => False :=
    run_keeps (P := LentWithin fun _ => False) (p := fun step => ∀ id, step ≠ .lend id)
      (fun _ _ hstep h => h.step hstep) steps hs (fun id t ht => by cases ht)
  exact Bool.eq_false_iff.2 (hnone id t hid)

end Session

/-- The step lets what is due happen before it ends. -/
def Step.catchesUp : Step → Answer → Bool
  | .sleep _, _ => true
  | .settle, _ => true
  | .hold _ _ _ _, .held _ _ => true
  | _, _ => false

namespace Session

/-! ## Runs -/

/-- A step that lets what is due happen ends with what letting a time pass leaves. -/
theorem step_of_catchesUp {s : Session} {step : Step} (h : step.catchesUp (s.step step).1 = true) :
    ∃ (s' : Session) (time : Duration), (s.step step).2 = s'.sleep time := by
  cases step with
  | sleep time => exact ⟨s, time, rfl⟩
  | settle => exact ⟨s, ⟨0⟩, rfl⟩
  | hold id before time after =>
    simp only [step] at h ⊢
    obtain heq | ⟨t, -, -, -, heq⟩ := s.onOwner_eq id fun t => s.hold id t before time after <;>
      rw [heq] at h ⊢
    · cases h
    · obtain ⟨_, heq⟩ | ⟨_, -, heq⟩ := s.hold_eq id t before time after <;> rw [heq] at h ⊢
      · cases h
      · exact ⟨_, ⟨0⟩, rfl⟩
  | _ => cases h

/-- What has expired is in no log. -/
theorem origins_of_expired {h : List Entry} {b : Books} (hl : LogOf h b) {id : Nat}
    {t : Transaction} (ht : b.transactions[id]? = some t) (hp : t.phase = .finished .expired)
    (addr : String) : ∀ o ∈ origins h (isOn b.transactions addr), o.1.id ≠ id := by
  rintro o ho rfl
  obtain ⟨-, hm, hd, hid, -⟩ := mem_origins ho
  have hc : o.2.id ∈ committed h :=
    List.mem_filterMap.2 ⟨o.2, hm, by simp only [Entry.committed?, hd]⟩
  obtain ⟨u, hu, hup⟩ := (hl.committed_iff _).1 hc
  rw [← hid] at hu
  obtain rfl : t = u := Option.some.inj (ht.symm.trans hu)
  cases hp.symm.trans hup

/-- **Expiry is neither early nor missed.** Each transaction of a run that its deadline ends, it
ends once, when it has passed; that is one rollback on its server, which has no others but those by
owners, and what the transaction had waiting is in no log, whatever comes next. Of the transactions
begun through a node, after what is due has happened, none is open and overdue but those whose
connection is away, and where all loans are holds there are none of these. Letting a time pass ends
what is open and due in it when the timer of its deadline acts, or at once if that is behind; a
connection that is away makes it wait for the return and not longer. What is finished does not
expire. -/
theorem expiries_run (g : Generator) (offset : Int) (steps : List Step) :
    let s₀ := fresh g offset
    let s := (s₀.run steps).2
    (∀ x ∈ s₀.expiries steps, ∃ t, s.transactions[x.2]? = some t ∧ t.expires = true ∧
      t.phase = .finished .expired ∧ t.deadline.nanos ≤ x.1 ∧
      ∀ rest addr, let s' := (s.run rest).2
        let sources := origins (s₀.history (steps ++ rest)) (isOn s'.transactions addr)
        (s'.cluster.get addr).statements.map .executed = sources.map (·.1.deed) ∧
          ∀ o ∈ sources, o.1.id ≠ x.2) ∧
    ((s₀.expiries steps).map (·.2)).Nodup ∧
    (∀ addr, (s.cluster.get addr).rollbacks =
      (onServer addr s.transactions).countP (·.phase = .finished .rolledBack) +
        (s₀.expiries steps).countP fun x => isOn s.transactions addr x.2) ∧
    (∀ step : Step, step.catchesUp (s.step step).1 = true → let s' := (s.step step).2
      ∀ t ∈ s'.transactions, t.expires = true → t.deadline.wake ≤ s'.clock → t.isLent = false →
        ∃ ending, t.phase = .finished ending) ∧
    ((∀ step ∈ steps, ∀ id, step ≠ .lend id) → ∀ t ∈ s.transactions, t.isLent = false) ∧
    (∀ id t pending (time : Duration), s.transactions[id]? = some t → t.expires = true →
      t.deadline.wake ≤ s.clock + time.nanos → let s' := (s.step (.sleep time)).2
      (t.phase = .live pending .home →
        s'.transactions[id]? = some { t with phase := .finished .expired } ∧
        (max s.clock t.deadline.wake, id) ∈ s₀.expiries (steps ++ [.sleep time])) ∧
      (t.phase = .live pending .lent →
        s'.transactions[id]? = some { t with phase := .live pending .awaited } ∧
        (s'.clock, id) ∈ s₀.expiries (steps ++ [.sleep time, .giveBack id]))) ∧
    ∀ id t ending, s.transactions[id]? = some t → t.phase = .finished ending →
      ∀ rest, id ∉ (s.expiries rest).map (·.2) := by
  intro s₀ s
  have htimely : s₀.Timely := timely_fresh g offset
  have hlapse := lapse_run htimely steps
  have hs : s.Timely := hlapse.timely htimely
  refine ⟨?_, hlapse.nodup, ?_, ?_, unlent_run g offset, ?_, ?_⟩
  · intro x hx
    obtain ⟨t, ht, hp, he, hd⟩ := hlapse.due x hx
    refine ⟨t, ht, he, hp, of_decide_eq_true hd, fun rest addr => ?_⟩
    have hlog := logOf_run g offset (steps ++ rest)
    rw [run_append] at hlog
    obtain ⟨t', ht', hl⟩ := (run_moves rest s).later ht
    refine ⟨?_, origins_of_expired hlog ht' (hl.finished _ hp) addr⟩
    rw [← map_origins]
    exact congrArg (List.map Deed.executed) (hlog.log addr)
  · intro addr
    have htally := (tally_run g offset steps addr).2.2
    rw [total, sum_rollbacks, ← countP_of_lapse hlapse addr] at htally
    exact htally
  · intro step hstep s' t ht he hd hl
    obtain ⟨s₁, time, heq⟩ := step_of_catchesUp hstep
    have hnow : s'.clock = s₁.clock + time.nanos := by
      show (s.step step).2.clock = _
      rw [heq, clock_sleep]
    have hmem : t ∈ (s₁.advanceTo (s₁.clock + time.nanos)).transactions := by
      show t ∈ (s₁.sleep time).transactions
      rw [← heq]
      exact ht
    exact overdue_finished hmem he (by omega) hl
  · intro id t pending time ht he hd s'
    refine ⟨fun hp => ⟨getElem?_sleep_of_home ht he hp hd, ?_⟩, fun hp => ?_⟩
    · rw [expiries, Notes.ofRun_append, Notes.ofRun_singleton _ _ rfl]
      exact List.mem_append_right _ (mem_expiries_during ht he hp hd)
    · have hwait := getElem?_sleep_of_lent ht he hp hd
      have howned : t.owned = true :=
        lent_owned_run g offset steps ht (by unfold Transaction.isLent; rw [hp])
      refine ⟨hwait, ?_⟩
      have hback := mem_expiries_giveBack hwait howned rfl
      rw [← Notes.ofRun_singleton _ _ rfl] at hback
      rw [expiries, List.append_cons, Notes.ofRun_append, run_append]
      exact List.mem_append_right _ hback
  · intro id t ending ht hp rest
    exact (lapse_run hs rest).not_mem_of_finished ht hp

/-- Two deadlines whose timers act at once. -/
theorem expiries_run_two :
    let steps := [Step.build "[\"\",0,2,0,[\"m:1\"]]", .beginThrough ⟨1500000⟩,
      .beginThrough ⟨2000000⟩]
    let last := Step.sleep ⟨5000000⟩
    let s := ((fresh ⟨3⟩ 0).run steps).2
    let expiries := (fresh ⟨3⟩ 0).expiries (steps ++ [last])
    (2000000, 0) ∈ expiries ∧ (2000000, 1) ∈ expiries ∧ (expiries.map (·.2)).Nodup ∧
      (∀ t ∈ s.transactions, t.isLent = false) ∧
      (∀ t ∈ (s.step last).2.transactions, t.isLent = false) ∧
      ∀ rest, 1 ∉ ((s.step last).2.expiries rest).map (·.2) := by
  intro steps last s expiries
  let t (nanos : Nat) : Transaction :=
    { server := "m:1", deadline := ⟨nanos⟩, expires := true, phase := .live [] .home }
  have hs : s.transactions = [t 1500000, t 2000000] ∧ s.clock = 0 := by
    unfold s steps t
    decide +kernel
  have hnow : s.clock = 0 := hs.2
  have h₀ : s.transactions[0]? = some (t 1500000) := by rw [hs.1]; rfl
  have h₁ : s.transactions[1]? = some (t 2000000) := by rw [hs.1]; rfl
  have hloans : ∀ step ∈ steps, ∀ id, step ≠ .lend id := by simp [steps]
  have hloans' : ∀ step ∈ steps ++ [last], ∀ id, step ≠ .lend id := by simp [steps, last]
  obtain ⟨-, -, -, -, hunlent, hdue, -⟩ := expiries_run ⟨3⟩ 0 steps
  obtain ⟨-, hnodup, -, -, hunlent', -, hended⟩ := expiries_run ⟨3⟩ 0 (steps ++ [last])
  have hrun : ((fresh ⟨3⟩ 0).run (steps ++ [last])).2 = (s.step last).2 :=
    run_append steps [last] _
  rw [hrun] at hunlent' hended
  obtain ⟨-, hfirst⟩ := (hdue 0 _ [] ⟨5000000⟩ h₀ rfl (by rw [hnow]; decide)).1 rfl
  obtain ⟨hexpired, hsecond⟩ := (hdue 1 _ [] ⟨5000000⟩ h₁ rfl (by rw [hnow]; decide)).1 rfl
  have hwake₀ : max s.clock (t 1500000).deadline.wake = 2000000 := by rw [hnow]; decide
  have hwake₁ : max s.clock (t 2000000).deadline.wake = 2000000 := by rw [hnow]; decide
  rw [hwake₀] at hfirst
  rw [hwake₁] at hsecond
  exact ⟨hfirst, hsecond, hnodup, hunlent hloans, hunlent' hloans', hended 1 _ _ hexpired rfl⟩

end Session

end ReplicaRouter
