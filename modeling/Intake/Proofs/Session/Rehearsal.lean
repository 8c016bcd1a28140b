import Intake.Proofs.Session.Exclusive
import Intake.Rehearsal

/-! What a rehearsal keeps. Whatever a script has done with a session during its deliveries and its
notices, which may be a run inside a run, comes down to what can be done with any session and to changes
of its engine. So the mapping of a session that was rehearsed is as exclusive as before. -/
namespace Intake

structure Session.Lasting (P : Session → Prop) : Prop where
  engine : ∀ s engine, P s → P { s with engine }
  deed : ∀ s done, P s → P (s.deed done)

theorem Session.lasting_orderly : Lasting Orderly where
  engine _ _ orderly := orderly.leaves (.same rfl rfl rfl)
  deed _ done orderly := orderly.deed done

namespace Rehearsal
variable {P : Session → Prop} {α β : Type} {fuel : Nat}

structure Has (P : Session → Prop) (r : Rehearsal) : Prop where
  session : P r.session
  again : ∀ s, P s → P (r.again s).2

def Keeps (P : Session → Prop) (play : Play α) : Prop := ∀ r, Has P r → Has P (play.run r).2

namespace Keeps

theorem pure (a : α) : Keeps P (Pure.pure a : Play α) := fun _ has => has

theorem bind {first : Play α} {next : α → Play β} (here : Keeps P first)
    (later : ∀ a, Keeps P (next a)) : Keeps P (first >>= next) := by
  intro r has
  rw [StateT.run_bind]
  exact later _ _ (here r has)

/-- What is read of a rehearsal has the property. -/
theorem read {next : Rehearsal → Play β} (later : ∀ r, Has P r → Keeps P (next r)) :
    Keeps P (get >>= next) := fun r has => later r has r has

theorem update {f : Rehearsal → Rehearsal} (kept : ∀ r, Has P r → Has P (f r)) :
    Keeps P (modify f : Play Unit) := kept

theorem discard {play : Play α} (kept : Keeps P play) : Keeps P (Functor.discard play) :=
  fun r has => kept r has

end Keeps

theorem keeps_record (entry : Entry) : Keeps P (record entry) :=
  .update fun _ has => ⟨has.session, has.again⟩

structure Plays (P : Session → Prop) (fuel : Nat) : Prop where
  change : ∀ f, (∀ s, P s → P (f s)) → Keeps P (change fuel f)
  notice : Keeps P (notice fuel)
  perform : ∀ cues, Keeps P (perform fuel cues)
  performOutside : ∀ cues, Keeps P (performOutside fuel cues)
  play : ∀ cue, Keeps P (play fuel cue)
  startInside : Keeps P (startInside fuel)
  awaitTask : ∀ asked, Keeps P (awaitTask fuel asked)
  goOn : ∀ inside failure?, Keeps P (goOn fuel inside failure?)

section
variable (lasting : Session.Lasting P) (plays : Plays P fuel)
include lasting plays

theorem keeps_change {f : Session → Session} (kept : ∀ s, P s → P (f s)) :
    Keeps P (change (fuel + 1) f) := by
  refine .read fun r has => ?_
  refine .bind (fun r' has' => ⟨kept _ (lasting.engine _ _ has.session), has.again⟩) fun _ => ?_
  split_ifs
  · exact plays.notice
  · exact .pure none

omit lasting in
theorem keeps_notice : Keeps P (notice (fuel + 1)) := by
  refine .bind (.update fun r has => ⟨has.session, has.again⟩) fun _ => .read fun r has => ?_
  refine .bind (plays.perform _) fun failure? => ?_
  cases failure? with
  | none => exact .read fun _ _ => .pure _
  | some failure => exact .pure _

omit lasting in
theorem keeps_perform (cues : List Cue) : Keeps P (perform (fuel + 1) cues) := by
  cases cues with
  | nil => exact .pure none
  | cons cue rest =>
    refine .bind (plays.play cue) fun failure? => ?_
    cases failure? with
    | none => exact plays.perform rest
    | some failure => exact .pure _

omit lasting in
theorem keeps_performOutside (cues : List Cue) : Keeps P (performOutside (fuel + 1) cues) := by
  cases cues with
  | nil => exact .pure ()
  | cons cue rest =>
    refine .bind (plays.play cue) fun failure? => ?_
    cases failure? with
    | none => exact plays.performOutside rest
    | some failure => exact .bind (keeps_record _) fun _ => plays.performOutside rest

theorem keeps_play (cue : Cue) : Keeps P (play (fuel + 1) cue) := by
  have finish (result : CueResult) :
      Keeps P (do record (.cue cue result); return (none : Option Failure)) :=
    .bind (keeps_record _) fun _ => .pure none
  have ask (f : Session → Session) (kept : ∀ s, P s → P (f s)) (result : CueResult) :
      Keeps P (do
        discard (change fuel f)
        record (.cue cue result)
        return (none : Option Failure)) :=
    .bind (.discard (plays.change f kept)) fun _ => finish result
  refine .read fun r has => ?_
  cases cue with
  | operate | togglePause | save =>
    refine .bind (plays.change _ fun s has => lasting.engine _ _ has) fun failure? => ?_
    cases failure? with
    | none => exact finish _
    | some failure => exact .pure _
  | load => exact ask _ (fun s has => lasting.engine _ _ has) _
  | status => exact finish _
  | interrupt =>
    exact .bind (.update fun _ has => ⟨has.session, has.again⟩) fun _ => finish _
  | startAgain =>
    have again := has.again _ has.session
    dsimp only
    cases answer : r.again r.session with
    | mk result next =>
      rw [answer] at again
      cases result with
      | error error =>
        exact .bind (.update fun _ has' => ⟨again, has'.again⟩) fun _ => finish _
      | ok _ =>
        dsimp only
        split_ifs
        · exact plays.startInside
        · exact finish _
  | openText name text => exact ask _ (fun s has => lasting.deed s (.openText name text) has) _
  | assign key header => exact ask _ (fun s has => lasting.deed s (.assign key header) has) _
  | setLists lists => exact ask _ (fun s has => lasting.deed s (.setLists lists) has) _
  | discardProgress => exact ask _ (fun s has => lasting.deed s .discard has) _
  | close answer =>
    refine .bind (plays.change _ fun s has => lasting.deed s (.act (.close answer)) has)
      fun failure? => ?_
    cases failure? with
    | some failure => exact .bind (keeps_record _) fun _ => .pure none
    | none =>
      dsimp only
      cases (r.session.beginClose answer).1 with
      | closed | declined => exact .bind (keeps_record _) fun _ => .pure none
      | stopping => exact .bind (plays.awaitTask _) fun _ => .pure none

/-- A run that is given up inside another one leaves the stage of the outer one. -/
theorem keeps_startInside : Keeps P (startInside (fuel + 1)) := by
  refine .read fun r has => ?_
  have put (released : Bool) (stage : Stage) : Keeps P (modify fun r => { r with
      session := { r.session with engine := { r.session.engine with released, stage } } } : Play Unit) :=
    .update fun _ has => ⟨lasting.engine _ _ has.session, has.again⟩
  refine .bind (plays.change _ has.again) fun failure? => ?_
  refine .bind (plays.goOn _ _) fun _ => .read fun inner _ => ?_
  dsimp only
  split
  · exact .bind (put _ _) fun _ => .pure _
  · exact .bind (put _ _) fun _ => .bind (keeps_record _) fun _ => .pure _
  · exact .bind (put _ _) fun _ => .bind (keeps_record _) fun _ => .pure _

theorem keeps_awaitTask (asked : Nat) : Keeps P (awaitTask (fuel + 1) asked) := by
  refine .read fun r has => ?_
  refine .bind (.update fun _ has' => ⟨lasting.deed r.session (.act .await) has.session, has'.again⟩)
    fun _ => ?_
  split
  · exact keeps_record _
  · refine .bind (plays.goOn _ _) fun _ => .read fun inner _ => ?_
    split
    · exact keeps_record _
    · exact .pure ()

theorem keeps_goOn (inside : Bool) (failure? : Option Failure) :
    Keeps P (goOn (fuel + 1) inside failure?) := by
  have step (bare : Bool) (move : Move) (outer : Bool) : Keeps P (do
      goOn fuel outer (← change fuel (follow bare (·.move move)))) := by
    refine .bind (plays.change _ fun s has => ?_) fun _ => plays.goOn _ _
    unfold follow
    split_ifs
    · exact lasting.engine _ _ has
    · exact lasting.deed s (.act (.engine move)) has
  refine .read fun r has => ?_
  dsimp only
  split
  · exact .pure ()
  · exact .pure ()
  · exact step _ (.acknowledge failure?) _
  · exact step _ (.acknowledge failure?) _
  · exact step _ (.acknowledge failure?) _
  · refine .bind (.update fun _ has => ⟨has.session, has.again⟩) fun _ => ?_
    refine .bind (plays.perform _) fun failure? => ?_
    cases failure? with
    | some failure => exact step _ (.answer (.rejected failure)) _
    | none => exact step _ (.answer _) _
  · split_ifs
    · exact .pure ()
    · exact step _ .interrupt _
    · exact step _ .proceed _
  · split_ifs
    · exact .pure ()
    · exact step _ .interrupt _
    · exact step _ .proceed _
    · refine .bind (keeps_record _) fun _ => ?_
      refine .bind (.update fun _ has => ⟨has.session, has.again⟩) fun _ => ?_
      exact .bind (plays.performOutside _) fun _ => plays.goOn _ _

end

theorem plays_of_fuel (lasting : Session.Lasting P) (fuel : Nat) : Plays P fuel := by
  induction fuel with
  | zero =>
    exact ⟨fun _ _ => .pure none, .pure none, fun _ => .pure none, fun _ => .pure (),
      fun _ => .pure none, .pure none, fun _ => .pure (), fun _ _ => .pure ()⟩
  | succ fuel plays =>
    exact ⟨fun _ kept => keeps_change lasting plays kept, keeps_notice plays, keeps_perform plays,
      keeps_performOutside plays, keeps_play lasting plays, keeps_startInside lasting plays,
      keeps_awaitTask lasting plays, keeps_goOn lasting plays⟩

/-- Whatever is rehearsed with a session, a lasting property of it lasts, unless starting a run takes it
away. -/
theorem keeps_run (lasting : Session.Lasting P) (script : Script)
    {start : Session → Except SessionError Unit × Session}
    (started : ∀ s, P s → P (start s).2) : Keeps P (run script start) := by
  have plays (fuel : Nat) : Plays P fuel := plays_of_fuel lasting fuel
  refine .bind (.update fun _ has => ⟨has.session, has.again⟩) fun _ => .read fun r _ => ?_
  refine .bind ((plays _).performOutside _) fun _ => .read fun r has => ?_
  have begun := started _ has.session
  cases answer : start r.session with
  | mk result next =>
    rw [answer] at begun
    cases result with
    | error error =>
      refine .bind (.update fun _ has => ⟨begun, has.again⟩) fun _ => ?_
      exact .bind ((plays _).performOutside _) fun _ => .pure _
    | ok _ =>
      refine .bind ((plays _).change _ started) fun failure? => ?_
      refine .bind ((plays _).goOn _ _) fun _ => ?_
      exact .bind ((plays _).performOutside _) fun _ => .read fun _ _ => .pure _

/-- The mapping of a session is exclusive after a rehearsal, in which its task may be started again. -/
theorem orderly_run {s : Session} (orderly : s.Orderly) (bare listens : Bool) (place : Text × Text)
    (script : Script) :
    ((run script Session.run).run
      (.of s bare listens Session.startTask place)).2.session.Orderly := by
  have started (s : Session) : s.startTask.2 = s.begin.2 := by
    unfold Session.begin
    rcases s.startTask with ⟨_ | _, next⟩
    · rfl
    · dsimp only
      split <;> rfl
  have has : Has Session.Orderly (.of s bare listens Session.startTask place) :=
    ⟨orderly, fun s orderly => started s ▸ Session.lasting_orderly.deed s .begin orderly⟩
  exact (keeps_run Session.lasting_orderly script
    (fun s orderly => Session.lasting_orderly.deed s .run orderly) _ has).session

end Rehearsal
end Intake
