import Intake.Delivery.Basic
import Intake.Number.Binary64

/-! The pace of deliveries: a least interval between the beginnings of two of them, and a delay
after each. The pace is the same for any kind of seconds. -/
namespace Intake

/-- What a pace asks of seconds. -/
class Seconds (τ : Type) where
  origin : τ
  add : τ → τ → τ
  sub : τ → τ → τ
  lt : τ → τ → Bool
  le : τ → τ → Bool

instance : Seconds Binary64 := ⟨.zero false, Binary64.add, Binary64.sub, Binary64.lt, Binary64.le⟩

instance : Seconds Rat := ⟨0, (· + ·), (· - ·), fun a b => a < b, fun a b => a ≤ b⟩

structure Pace (τ : Type) where
  interval : τ
  delay : τ
  /-- when the next delivery may begin -/
  ready : τ

structure Timeline (τ : Type) where
  now : τ
  sleeps : List τ

namespace Timeline
variable {τ : Type} [Seconds τ]

def sleep (t : Timeline τ) (seconds : τ) : Timeline τ :=
  ⟨Seconds.add t.now seconds, t.sleeps ++ [seconds]⟩

end Timeline

namespace Pace
variable {τ : Type} [Seconds τ]

def of (interval delay : τ) : Pace τ := ⟨interval, delay, Seconds.origin⟩

def await (p : Pace τ) (t : Timeline τ) : Pace τ × Timeline τ :=
  if Seconds.le p.interval Seconds.origin then (p, t)
  else
    let t := if Seconds.lt t.now p.ready then t.sleep (Seconds.sub p.ready t.now) else t
    ({ p with ready := Seconds.add t.now p.interval }, t)

def rest (p : Pace τ) (t : Timeline τ) : Timeline τ :=
  if Seconds.lt Seconds.origin p.delay then t.sleep p.delay else t

/-- Makes a delivery at this pace, whatever comes of it. Whoever makes it is told when it begins, and
tells when it is over. -/
def deliverAt {ρ σ : Type} (p : Pace τ) (t : Timeline τ) (inner : Delivery → τ → σ → ρ × τ × σ)
    (s : σ) (delivery : Delivery) : ρ × σ × Pace τ × Timeline τ :=
  let (p, t) := p.await t
  let (reply, now, s) := inner delivery t.now s
  (reply, s, p, p.rest { t with now })

/-- Makes a delivery that takes no time. -/
def deliver {ρ σ : Type} (p : Pace τ) (t : Timeline τ) (inner : Delivery → σ → ρ × σ) (s : σ)
    (delivery : Delivery) : ρ × σ × Pace τ × Timeline τ :=
  p.deliverAt t (fun delivery now s => let (reply, s) := inner delivery s; (reply, now, s)) s delivery

end Pace

/-- The interval for a number of calls a minute; none or zero calls stand for no limit. -/
def intervalOf (callsPerMinute : Option Binary64) : Binary64 :=
  match callsPerMinute with
  | none => .zero false
  | some calls => if calls.isZero then .zero false else .ofRat 60 / calls

end Intake
