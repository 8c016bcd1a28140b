import Intake.Proofs.Checkpoint.Store
import Mathlib.Logic.Function.Basic

/-! The store of checkpoints over its whole history. On a memory that refuses nothing it is a map from
pairs of a workspace and a file name to the checkpoints that were saved last, each stamped with the
time at which it was: the digests keep the pairs apart, and the stored texts keep the checkpoints. -/
namespace Intake

inductive StoreAct
  | save (workspace fileName : Text) (c : Checkpoint)
  | load (workspace fileName : Text)
  | clear (workspace fileName : Text)
  | clock (now : Int)

namespace StoreAct

def pair? : StoreAct → Option (Text × Text)
  | save workspace fileName _ | load workspace fileName | clear workspace fileName =>
    some (workspace, fileName)
  | clock _ => none

def Spares (pair : Text × Text) : StoreAct → Prop
  | save workspace fileName _ | clear workspace fileName => (workspace, fileName) ≠ pair
  | load _ _ | clock _ => True

def Leaves (pair : Text × Text) (act : StoreAct) : Prop :=
  act.Spares pair ∧ ∀ now, act ≠ clock now

def Usable : StoreAct → Prop
  | save workspace fileName c =>
    workspace.isJoined = true ∧ fileName.isJoined = true ∧ c.Sound
  | load workspace fileName | clear workspace fileName =>
    workspace.isJoined = true ∧ fileName.isJoined = true
  | clock now => (Binary64.ofInt? now).isSome = true

instance : DecidablePred Usable
  | save _ _ _ => inferInstanceAs (Decidable (_ ∧ _))
  | load _ _ => inferInstanceAs (Decidable (_ ∧ _))
  | clear _ _ => inferInstanceAs (Decidable (_ ∧ _))
  | clock _ => inferInstanceAs (Decidable (_ = _))

def run (store : ProgressStore) : StoreAct → ProgressStore
  | save workspace fileName c => (store.save workspace fileName c).2.2
  | load workspace fileName => (store.load workspace fileName).2.2
  | clear workspace fileName => (store.clear workspace fileName).2
  | clock now => { store with now }

end StoreAct

def ProgressStore.after (store : ProgressStore) (acts : List StoreAct) : ProgressStore :=
  acts.foldl (fun store a => a.run store) store

structure PlainStore where
  saved : Text × Text → Option Checkpoint
  freshness : Int
  now : Int

namespace PlainStore

def act (plain : PlainStore) : StoreAct → PlainStore
  | .save workspace fileName c =>
    { plain with saved :=
        Function.update plain.saved (workspace, fileName) (some { c with savedAt := plain.now }) }
  | .clear workspace fileName =>
    { plain with saved := Function.update plain.saved (workspace, fileName) none }
  | .load _ _ => plain
  | .clock now => { plain with now }

def after (plain : PlainStore) (acts : List StoreAct) : PlainStore := acts.foldl act plain

def answer (plain : PlainStore) (workspace fileName : Text) : Option Checkpoint :=
  (plain.saved (workspace, fileName)).filter fun c =>
    c.fileName = fileName ∧ 0 ≤ c.row ∧ c.row < c.totalRows ∧
      plain.now - c.savedAt < plain.freshness

theorem saved_save (plain : PlainStore) (workspace fileName : Text) (c : Checkpoint)
    (pair : Text × Text) : (plain.act (.save workspace fileName c)).saved pair =
      if pair = (workspace, fileName) then some { c with savedAt := plain.now }
      else plain.saved pair :=
  Function.update_apply _ _ _ _

theorem saved_clear (plain : PlainStore) (workspace fileName : Text) (pair : Text × Text) :
    (plain.act (.clear workspace fileName)).saved pair =
      if pair = (workspace, fileName) then none else plain.saved pair :=
  Function.update_apply _ _ _ _

end PlainStore

/-! Pairs and their keys. -/

def pairBytes (pair : Text × Text) : Bytes :=
  (Text.encodeUtf8 (pairText pair.1 pair.2)).getD []

/-- Whether no two of some pairs share a digest of different bytes. -/
def Uncollided (pairs : List (Text × Text)) : Prop :=
  ∀ p ∈ pairs, ∀ q ∈ pairs,
    Sha256.digest (pairBytes p) = Sha256.digest (pairBytes q) → pairBytes p = pairBytes q

instance (pairs : List (Text × Text)) : Decidable (Uncollided pairs) :=
  inferInstanceAs (Decidable (∀ p ∈ pairs, ∀ q ∈ pairs, _ → _))

/-- The text of a pair is the JSON list of both names. -/
theorem write_pair (pair : Text × Text) :
    (Json.list [.text pair.1, .text pair.2]).write Json.stored = .ok (pairText pair.1 pair.2) := by
  simp [Json.write, Json.writeItems, bind, Except.bind, pure, Except.pure, Text.join, pairText,
    Json.stored, Text.ofString]

theorem encode_pair (pair : Text × Text) :
    Text.encodeUtf8 (pairText pair.1 pair.2) = some (pairBytes pair) ∧
      Text.decodeUtf8 false (pairBytes pair) = some (pairText pair.1 pair.2) := by
  obtain ⟨bytes, encoded, decoded⟩ :=
    Text.decodeUtf8_encodeUtf8 (Text.isScalar_of_isPlain (Json.isPlain_write _ (write_pair pair)))
  rw [pairBytes, encoded]
  exact ⟨rfl, decoded⟩

theorem read_pair {pair : Text × Text} (joined : pair.1.isJoined = true ∧ pair.2.isJoined = true) :
    Json.read (pairText pair.1 pair.2) = .ok (.list [.text pair.1, .text pair.2]) := by
  refine Json.read_write Json.stored_regular (.list fun item here => ?_) (write_pair pair)
  simp only [List.mem_cons, List.not_mem_nil, or_false] at here
  rcases here with rfl | rfl
  · exact .text fun _ => joined.1
  · exact .text fun _ => joined.2

theorem pairText_injective {p q : Text × Text}
    (left : p.1.isJoined = true ∧ p.2.isJoined = true)
    (right : q.1.isJoined = true ∧ q.2.isJoined = true)
    (same : pairText p.1 p.2 = pairText q.1 q.2) : p = q := by
  have lists := read_pair left
  rw [same, read_pair right] at lists
  simp only [Except.ok.injEq, Json.list.injEq, List.cons.injEq, Json.text.injEq] at lists
  exact Prod.ext lists.1.symm lists.2.1.symm

theorem pairBytes_injective {p q : Text × Text}
    (left : p.1.isJoined = true ∧ p.2.isJoined = true)
    (right : q.1.isJoined = true ∧ q.2.isJoined = true) (same : pairBytes p = pairBytes q) :
    p = q := by
  refine pairText_injective left right (Option.some.inj ?_)
  rw [← (encode_pair p).2, ← (encode_pair q).2, same]

theorem pair_of_progressKey {pairs : List (Text × Text)} (uncollided : Uncollided pairs)
    (joined : ∀ pair ∈ pairs, pair.1.isJoined = true ∧ pair.2.isJoined = true) {p q : Text × Text}
    (left : p ∈ pairs) (right : q ∈ pairs)
    (same : progressKey p.1 p.2 = progressKey q.1 q.2) : p = q :=
  pairBytes_injective (joined p left) (joined q right)
    (uncollided p left q right (List.append_cancel_left same))

/-! The invariant. -/

/-- Progress is accepted exactly if it is of this file, on one of its rows, and fresh. -/
theorem ProgressStore.accept_cases (store : ProgressStore) (fileName : Text) (c : Checkpoint) :
    (c.fileName = fileName ∧ 0 ≤ c.row ∧ c.row < c.totalRows ∧
        store.now - c.savedAt < store.freshness) ∧ store.accept fileName c = .ok c ∨
      ¬ (c.fileName = fileName ∧ 0 ≤ c.row ∧ c.row < c.totalRows ∧
        store.now - c.savedAt < store.freshness) ∧ ∃ why, store.accept fileName c = .error why := by
  unfold accept
  split_ifs with other inside stale
  · exact .inr ⟨fun all => other all.1, _, rfl⟩
  · refine .inr ⟨?_, _, rfl⟩
    rintro ⟨_, _, _, fresh⟩
    omega
  · refine .inl ⟨⟨not_not.mp other, inside.1, inside.2, ?_⟩, rfl⟩
    omega
  · exact .inr ⟨fun all => inside ⟨all.2.1, all.2.2.1⟩, _, rfl⟩

def ProgressStore.Keeps (store : ProgressStore) (pair : Text × Text) : Option Checkpoint → Prop
  | some c => c.Sound ∧ store.Holds pair.1 pair.2 c
  | none => store.storage.medium.get (progressKey pair.1 pair.2) = .ok none

theorem ProgressStore.Keeps.of_get {store next : ProgressStore} {pair : Text × Text}
    {c? : Option Checkpoint} (keeps : store.Keeps pair c?)
    (same : next.storage.medium.get (progressKey pair.1 pair.2)
      = store.storage.medium.get (progressKey pair.1 pair.2)) : next.Keeps pair c? := by
  cases c? with
  | none => exact same.trans keeps
  | some c =>
    obtain ⟨sound, text, written, stored⟩ := keeps
    exact ⟨sound, text, written, same.trans stored⟩

structure Refines (pairs : List (Text × Text)) (plain : PlainStore) (store : ProgressStore) :
    Prop where
  now : store.now = plain.now
  freshness : store.freshness = plain.freshness
  shown : (Binary64.ofInt? plain.now).isSome = true
  served : ∀ n access, store.storage.refuses n access = none
  memory : ∃ items, store.storage.medium = .memory items
  keeps : ∀ pair ∈ pairs, store.Keeps pair (plain.saved pair)

namespace Refines
variable {pairs : List (Text × Text)} {plain : PlainStore} {store : ProgressStore}

private theorem save_memory {items : Entries Text Text} {workspace fileName text : Text}
    {c : Checkpoint} (served : ∀ n access, store.storage.refuses n access = none)
    (memory : store.storage.medium = .memory items)
    (written : { c with savedAt := store.now }.toJson.write Json.stored = .ok text) :
    (store.save workspace fileName c).2.2 = { store with storage := { store.storage with
      medium := .memory (Entries.put (progressKey workspace fileName) text items)
      calls := store.storage.calls + 1 } } := by
  have same : c.draft.toJson store.now = { c with savedAt := store.now }.toJson := rfl
  simp only [ProgressStore.save, ProgressStore.saveDraft, same, written, Storage.set, served, memory,
    Medium.set]

private theorem clear_memory {items : Entries Text Text} {workspace fileName : Text}
    (served : ∀ n access, store.storage.refuses n access = none)
    (memory : store.storage.medium = .memory items) :
    (store.clear workspace fileName).2 = { store with storage := { store.storage with
      medium := .memory (Entries.erase (progressKey workspace fileName) items)
      calls := store.storage.calls + 1 } } := by
  simp only [ProgressStore.clear, Storage.remove, served, memory, Medium.remove]

/-- What is done with the store is done with the map. -/
theorem act (refines : Refines pairs plain store) (uncollided : Uncollided pairs)
    (joined : ∀ pair ∈ pairs, pair.1.isJoined = true ∧ pair.2.isJoined = true) {a : StoreAct}
    (usable : a.Usable) (among : ∀ pair, a.pair? = some pair → pair ∈ pairs) :
    Refines pairs (plain.act a) (a.run store) := by
  have ⟨now, freshness, shown, served, ⟨items, memory⟩, keeps⟩ := refines
  cases a with
  | save workspace fileName c =>
    have stamped : { c with savedAt := store.now }.Sound := by
      have ⟨name, distinct, mapped, lists, row, totalRows, batch, totalBatches, _⟩ := usable.2.2
      exact ⟨name, distinct, mapped, lists, row, totalRows, batch, totalBatches, now ▸ shown⟩
    obtain ⟨text, written⟩ := stamped.exists_write
    simp only [StoreAct.run, save_memory served memory written]
    refine ⟨now, freshness, shown, served, ⟨_, rfl⟩, ?_⟩
    intro pair member
    rw [PlainStore.saved_save]
    split_ifs with same
    · subst same
      rw [← now]
      exact ⟨stamped, text, written, by simp [Medium.get, Entries.get?_put]⟩
    · apply (keeps pair member).of_get
      have other : progressKey workspace fileName ≠ progressKey pair.1 pair.2 :=
        fun clash => same (pair_of_progressKey uncollided joined (among _ rfl) member clash).symm
      simp [memory, Medium.get, Entries.get?_put, other]
  | load workspace fileName =>
    simp only [StoreAct.run, ProgressStore.load_storage]
    refine ⟨now, freshness, shown, served, ⟨items, memory⟩, ?_⟩
    exact fun pair member => (keeps pair member).of_get rfl
  | clear workspace fileName =>
    simp only [StoreAct.run, clear_memory served memory]
    refine ⟨now, freshness, shown, served, ⟨_, rfl⟩, ?_⟩
    intro pair member
    rw [PlainStore.saved_clear]
    split_ifs with same
    · subst same
      simp [ProgressStore.Keeps, Medium.get, Entries.get?_erase]
    · apply (keeps pair member).of_get
      have other : progressKey workspace fileName ≠ progressKey pair.1 pair.2 :=
        fun clash => same (pair_of_progressKey uncollided joined (among _ rfl) member clash).symm
      simp [memory, Medium.get, Entries.get?_erase, other]
  | clock time => exact ⟨rfl, freshness, usable, served, ⟨items, memory⟩, keeps⟩

theorem after (refines : Refines pairs plain store) (uncollided : Uncollided pairs)
    (joined : ∀ pair ∈ pairs, pair.1.isJoined = true ∧ pair.2.isJoined = true)
    {acts : List StoreAct} (usable : ∀ a ∈ acts, a.Usable)
    (among : ∀ a ∈ acts, ∀ pair, a.pair? = some pair → pair ∈ pairs) :
    Refines pairs (plain.after acts) (store.after acts) := by
  induction acts generalizing plain store with
  | nil => exact refines
  | cons a acts ih =>
    apply ih
    · exact refines.act uncollided joined (usable a List.mem_cons_self) (among a List.mem_cons_self)
    · exact fun other here => usable other (List.mem_cons_of_mem _ here)
    · exact fun other here => among other (List.mem_cons_of_mem _ here)

theorem load (refines : Refines pairs plain store) {workspace fileName : Text}
    (among : (workspace, fileName) ∈ pairs) :
    (store.load workspace fileName).1 = .ok (plain.answer workspace fileName) := by
  have keeps := refines.keeps _ among
  unfold PlainStore.answer
  cases kept : plain.saved (workspace, fileName) with
  | none =>
    rw [kept] at keeps
    have stored : store.storage.medium.get (progressKey workspace fileName) = .ok none := keeps
    simp only [ProgressStore.load, Storage.get, refines.served, stored]
    rfl
  | some c =>
    rw [kept] at keeps
    rw [ProgressStore.load_of_holds (refines.served _ _) keeps.2 keeps.1]
    rw [← refines.now, ← refines.freshness]
    rcases store.accept_cases fileName c with ⟨all, accepted⟩ | ⟨some, why, refused⟩
    · rw [accepted, Option.filter_some, if_pos (decide_eq_true all)]
    · rw [refused, Option.filter_some, if_neg (by simpa using some)]

end Refines

def ProgressStore.fresh (freshness now : Int) : ProgressStore := ⟨.of (.memory []), freshness, now⟩

def PlainStore.fresh (freshness now : Int) : PlainStore := ⟨fun _ => none, freshness, now⟩

theorem Refines.fresh (pairs : List (Text × Text)) (freshness : Int) {now : Int}
    (shown : (Binary64.ofInt? now).isSome = true) :
    Refines pairs (.fresh freshness now) (.fresh freshness now) where
  now := rfl
  freshness := rfl
  shown := shown
  served _ _ := rfl
  memory := ⟨[], rfl⟩
  keeps _ _ := rfl

def sampleSaved (fileName : Text) (row : Int) : Checkpoint :=
  ⟨fileName, row, 10, 1, 2, [("email", "Mail")], ["l1"], 0⟩

end Intake
