import Intake.Delivery.Pace
import Mathlib.Algebra.Order.Field.Rat
import Mathlib.Tactic.Linarith
import Mathlib.Tactic.Ring
import Mathlib.Tactic.SplitIfs

/-! Deliveries at a pace, on a clock that is exact. Each is handed on once, in the order in which it
was asked for, and its reply comes back as it is. It begins when it is asked for, or an interval after
the one before has begun, whichever is later; nothing else makes it wait. -/
namespace Intake

inductive Occasion
  | deliver (delivery : Delivery)
  | advance (seconds : ℚ)

def Occasion.delivery? : Occasion → Option Delivery
  | deliver delivery => some delivery
  | advance _ => none

structure Visit (ρ : Type) where
  delivery : Delivery
  arrival : ℚ
  reply : ρ
  sleeps : List ℚ
  leave : ℚ

structure Call (ρ : Type) where
  delivery : Delivery
  arrival : ℚ
  begun : ℚ
  ended : ℚ
  reply : ρ

variable {ρ σ : Type}

def Call.visit (delay : ℚ) (c : Call ρ) : Visit ρ where
  delivery := c.delivery
  arrival := c.arrival
  reply := c.reply
  sleeps := (if c.arrival < c.begun then [c.begun - c.arrival] else [])
    ++ if 0 < delay then [delay] else []
  leave := c.ended + max delay 0

inductive Received (inner : Delivery → ℚ → σ → ρ × ℚ × σ) : σ → List (Call ρ) → σ → Prop
  | none {s : σ} : Received inner s [] s
  | next {s after final : σ} {c : Call ρ} {rest : List (Call ρ)}
      (made : inner c.delivery c.begun s = (c.reply, c.ended, after))
      (others : Received inner after rest final) : Received inner s (c :: rest) final

def Paced (interval : ℚ) : ℚ → List (Call ρ) → Prop
  | _, [] => True
  | ready, c :: rest => c.begun = max c.arrival ready ∧ Paced interval (c.begun + interval) rest

namespace Pace
variable (inner : Delivery → ℚ → σ → ρ × ℚ × σ)

def visits (p : Pace ℚ) (now : ℚ) (s : σ) : List Occasion → List (Visit ρ) × σ
  | [] => ([], s)
  | .advance seconds :: rest => visits p (now + seconds) s rest
  | .deliver delivery :: rest =>
    let (reply, s, p, t) := p.deliverAt ⟨now, []⟩ inner s delivery
    let (others, s) := visits p t.now s rest
    (⟨delivery, now, reply, t.sleeps, t.now⟩ :: others, s)

/-- At a limited pace a delivery begins once it is asked for and the time has come. -/
theorem await_eq {p : Pace ℚ} (limited : 0 < p.interval) {now begun : ℚ}
    (first : begun = max now p.ready) :
    p.await ⟨now, []⟩ = ({ p with ready := begun + p.interval },
      ⟨begun, if now < begun then [begun - now] else []⟩) := by
  have unlimited : ¬ p.interval ≤ 0 := not_le.mpr limited
  subst first
  by_cases early : now < p.ready
  · have slept : now + (p.ready - now) = p.ready := by ring
    simp [await, Timeline.sleep, Seconds.le, Seconds.lt, Seconds.origin, Seconds.sub, Seconds.add,
      unlimited, early, slept, max_eq_right early.le]
  · simp [await, Seconds.le, Seconds.lt, Seconds.origin, Seconds.add, unlimited, early,
      max_eq_left (not_lt.mp early)]

theorem rest_eq (p : Pace ℚ) (t : Timeline ℚ) :
    p.rest t = ⟨t.now + max p.delay 0, t.sleeps ++ if 0 < p.delay then [p.delay] else []⟩ := by
  by_cases delayed : 0 < p.delay
  · simp [rest, Timeline.sleep, Seconds.lt, Seconds.origin, Seconds.add, delayed,
      max_eq_left delayed.le]
  · simp [rest, Seconds.lt, Seconds.origin, delayed, max_eq_right (not_lt.mp delayed)]

theorem visits_deliver {p : Pace ℚ} (limited : 0 < p.interval) {c : Call ρ}
    (begun : c.begun = max c.arrival p.ready) {s after : σ}
    (made : inner c.delivery c.begun s = (c.reply, c.ended, after)) (rest : List Occasion) :
    p.visits inner c.arrival s (.deliver c.delivery :: rest) =
      let others := ({ p with ready := c.begun + p.interval } : Pace ℚ).visits inner
        (c.ended + max p.delay 0) after rest
      (c.visit p.delay :: others.1, others.2) := by
  simp only [visits, deliverAt, await_eq limited begun, made, rest_eq, Call.visit]

/-- The visits at a pace are those of calls that keep it. -/
theorem visits_paced {p : Pace ℚ} (limited : 0 < p.interval) (now : ℚ) (s : σ)
    (occasions : List Occasion) :
    ∃ calls : List (Call ρ),
      calls.map (·.delivery) = occasions.filterMap Occasion.delivery? ∧
      Received inner s calls (p.visits inner now s occasions).2 ∧
      (p.visits inner now s occasions).1 = calls.map (Call.visit p.delay) ∧
      Paced p.interval p.ready calls := by
  induction occasions generalizing p now s with
  | nil => exact ⟨[], rfl, .none, rfl, trivial⟩
  | cons occasion rest ih =>
    cases occasion with
    | advance seconds => exact ih limited (now + seconds) s
    | deliver delivery =>
      rcases made : inner delivery (max now p.ready) s with ⟨reply, ended, after⟩
      let c : Call ρ := ⟨delivery, now, max now p.ready, ended, reply⟩
      obtain ⟨calls, asked, received, seen, paced⟩ :=
        ih (p := { p with ready := c.begun + p.interval }) limited (c.ended + max p.delay 0) after
      have step := visits_deliver inner limited (c := c) rfl made rest
      refine ⟨c :: calls, ?_, ?_, ?_, rfl, paced⟩
      · simp [Occasion.delivery?, asked, c]
      · rw [show delivery = c.delivery from rfl, show now = c.arrival from rfl, step]
        exact .next made received
      · rw [show delivery = c.delivery from rfl, show now = c.arrival from rfl, step]
        simp [seen]

/-- Nobody asks for a delivery before the clock has started. -/
theorem le_arrival (p : Pace ℚ) {now : ℚ} (s : σ) {occasions : List Occasion}
    (forward : ∀ seconds, .advance seconds ∈ occasions → 0 ≤ seconds) :
    ∀ v ∈ (p.visits inner now s occasions).1.head?, now ≤ v.arrival := by
  induction occasions generalizing now with
  | nil => simp [visits]
  | cons occasion rest ih =>
    cases occasion with
    | advance seconds =>
      have later : now ≤ now + seconds := by linarith [forward seconds List.mem_cons_self]
      have forward' : ∀ seconds, .advance seconds ∈ rest → 0 ≤ seconds :=
        fun seconds here => forward seconds (List.mem_cons_of_mem _ here)
      intro v first
      exact later.trans (ih forward' v first)
    | deliver delivery =>
      intro v first
      simp only [visits, List.head?_cons, Option.mem_def, Option.some.injEq] at first
      rw [← first]

end Pace

namespace Paced
variable {interval ready : ℚ} {calls : List (Call ρ)}

theorem next (paced : Paced interval ready calls) {i : Nat} (within : i + 1 < calls.length) :
    calls[i + 1].begun = max calls[i + 1].arrival (calls[i].begun + interval) := by
  induction calls generalizing ready i with
  | nil => simp at within
  | cons c rest ih =>
    obtain ⟨-, others⟩ := paced
    cases i with
    | succ i => exact ih others (by simpa using within)
    | zero =>
      cases rest with
      | nil => simp at within
      | cons d rest => exact others.1

/-- Between the beginnings of two calls there is an interval for each call after the first. -/
theorem apart (paced : Paced interval ready calls) {i j : Nat} (before : i ≤ j)
    (within : j < calls.length) :
    (j - i : ℕ) * interval ≤ calls[j].begun - calls[i].begun := by
  induction j, before using Nat.le_induction with
  | base => simp
  | succ j before ih =>
    have between := ih (by omega)
    have last : calls[j].begun + interval ≤ calls[j + 1].begun := by
      rw [paced.next within]
      exact le_max_right _ _
    rw [Nat.succ_sub before]
    push_cast
    linarith

end Paced

private theorem ofRat_sixty :
    Binary64.ofRat 60 = .finite false (15 * 2 ^ 49) (-47) (by decide) := by
  decide +kernel

/-- The interval is what a minute has for each call, rounded once. -/
theorem intervalOf_eq {limit : Binary64} {perMinute : ℚ} (value : limit.toRat? = some perMinute)
    (positive : 0 < perMinute) : intervalOf (some limit) = .ofRat (60 / perMinute) := by
  have minute : (Binary64.finite false (15 * 2 ^ 49) (-47) (by decide)).toRat? = some 60 := by
    norm_num [Binary64.toRat?]
  cases limit with
  | nan | infinite => cases value
  | finite negative significand exponent canonical =>
    have limited : significand ≠ 0 := by
      rintro rfl
      simp [Binary64.toRat?] at value
      simp [value] at positive
    have divided : intervalOf (some (.finite negative significand exponent canonical))
        = Binary64.ofRat 60 / .finite negative significand exponent canonical := by
      simp [intervalOf, Binary64.isZero, limited]
    rw [divided, ofRat_sixty]
    change Binary64.div _ _ = _
    simp only [Binary64.div, minute, value, positive.ne', if_false]
    norm_num

/-- At a positive number of calls a minute, each delivery that is asked for is made once, in order,
and its reply comes back as it is. The first begins when it is asked for, and each other one then or an
interval after the one before has begun, whichever is later, so that any two calls are as many
intervals apart as there are calls from the one to the other. Nobody sleeps but until a call begins
and, for a positive delay, once after each call. -/
theorem Pace.visits_spaced {perMinute : ℚ} (positive : 0 < perMinute) (delay : ℚ)
    (inner : Delivery → ℚ → σ → ρ × ℚ × σ) (s : σ) {start : ℚ} (started : 0 ≤ start)
    {occasions : List Occasion}
    (forward : ∀ seconds, .advance seconds ∈ occasions → 0 ≤ seconds) :
    let seen := (Pace.of (60 / perMinute) delay).visits inner start s occasions
    ∃ calls : List (Call ρ),
      calls.map (·.delivery) = occasions.filterMap Occasion.delivery? ∧
      Received inner s calls seen.2 ∧
      seen.1 = calls.map (Call.visit delay) ∧
      (∀ c ∈ calls.head?, c.begun = c.arrival) ∧
      (∀ i (within : i + 1 < calls.length),
        calls[i + 1].begun = max calls[i + 1].arrival (calls[i].begun + 60 / perMinute)) ∧
      (∀ i j (before : i < j) (within : j < calls.length),
        (j - i : ℕ) * (60 / perMinute) ≤ calls[j].begun - calls[i].begun) ∧
      ∀ limit : Binary64, limit.toRat? = some perMinute →
        intervalOf (some limit) = .ofRat (60 / perMinute) := by
  intro seen
  have limited : 0 < (Pace.of (60 / perMinute) delay).interval := by
    exact div_pos (by norm_num) positive
  obtain ⟨calls, asked, received, visited, paced⟩ :=
    visits_paced inner limited start s occasions
  refine ⟨calls, asked, received, visited, ?_, fun i => paced.next, fun i j before => ?_,
    fun limit value => intervalOf_eq value positive⟩
  · intro c first
    have arrived : start ≤ c.arrival := by
      refine le_arrival inner (Pace.of (60 / perMinute) delay) s forward (c.visit delay) ?_
      rw [visited, List.head?_map, Option.mem_def.mp first]
      rfl
    obtain ⟨rest, rfl⟩ : ∃ rest, calls = c :: rest := List.head?_eq_some_iff.mp first
    exact paced.1.trans (max_eq_left (started.trans arrived))
  · exact paced.apart before.le

def sampleOccasions : List Occasion :=
  [.deliver (.upsert "w" []), .deliver (.upsert "w" []), .advance 3, .deliver (.upsert "w" [])]

def rejectSecond : Delivery → ℚ → Nat → Bool × ℚ × Nat := fun _ now n => (n ≠ 1, now + 1 / 4, n + 1)

theorem visits_spaced_sample :
    let seen := (Pace.of (60 / 60) (1 / 2)).visits rejectSecond 0 0 sampleOccasions
    (0 : ℚ) < 60 ∧ (∀ seconds, .advance seconds ∈ sampleOccasions → 0 ≤ seconds) ∧
      seen.1.map (fun v => (v.arrival, v.reply, v.sleeps))
        = [(0, true, [1 / 2]), (3 / 4, false, [1 / 4, 1 / 2]), (19 / 4, true, [1 / 2])] ∧
      ∃ calls : List (Call Bool), seen.1 = calls.map (Call.visit (1 / 2)) ∧
        Received rejectSecond 0 calls seen.2 ∧
        ∀ i (within : i + 1 < calls.length),
          calls[i + 1].begun = max calls[i + 1].arrival (calls[i].begun + 60 / 60) := by
  intro seen
  have forward : ∀ seconds, .advance seconds ∈ sampleOccasions → 0 ≤ seconds := by
    intro seconds here
    simp only [sampleOccasions, List.mem_cons, reduceCtorEq, Occasion.advance.injEq,
      List.not_mem_nil, or_false, false_or] at here
    norm_num [here]
  have positive : (0 : ℚ) < 60 := by norm_num
  obtain ⟨calls, -, received, visited, -, next, -⟩ :=
    Pace.visits_spaced positive (1 / 2) rejectSecond 0 le_rfl forward
  exact ⟨positive, forward, by decide +kernel, calls, visited, received, next⟩

end Intake
