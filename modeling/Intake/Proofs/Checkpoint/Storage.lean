import Intake.Checkpoint.Storage
import Intake.Proofs.Entries
import Intake.Proofs.Files.Tree
import Intake.Proofs.Json.Plain
import Mathlib.Data.List.Perm.Subperm
import Mathlib.Data.List.Nodup
import Mathlib.Tactic.Push

/-! What a medium keeps, in memory as in files: a plain text that it took under a key is the text of
the key, a text that it could not take leaves every key the text that it had, and a key that was
removed has none. Writing a file either fails and leaves all files as they were, or puts the text
where the path of its key leads to. -/
namespace Intake

namespace Text

theorem ofNat_injective : Function.Injective ofNat := by
  intro m n same
  have digits : Nat.toDigits 10 m = Nat.toDigits 10 n :=
    List.map_injective_iff.mpr (fun _ _ => CodePoint.scalar.inj) same
  rw [← @Nat.ofDigitChars_ten_toDigits m, digits, Nat.ofDigitChars_ten_toDigits]

theorem unifyLineEnds_plain {t : Text} (plain : t.isPlain = true) : unifyLineEnds t = t := by
  fun_induction unifyLineEnds t with
  | case1 => rfl
  | case2 rest ih => simp [CodePoint.isPlain, CodePoint.value] at plain
  | case3 rest _ ih => simp [CodePoint.isPlain, CodePoint.value] at plain
  | case4 c rest _ _ ih =>
    simp only [isPlain_cons, Bool.and_eq_true] at plain
    rw [ih plain.2]

end Text

namespace Medium

private theorem ordinary_temporary (location : Location) (n : Nat) :
    ¬ (location ++ [temporaryName n] = [[Path.separator]] ∨
      (location ++ [temporaryName n]).all (· = FileTree.up) = true) := by
  rw [List.append_eq_singleton_iff]
  simp [temporaryName, Text.ofString, Path.separator, FileTree.up]

private theorem temporaryName_injective : Function.Injective temporaryName := by
  intro m n same
  exact Text.ofNat_injective (List.append_cancel_left (List.append_cancel_right same))

private theorem exists_free (tree : FileTree) (location : Location) :
    ∃ n < tree.nodes.length + 1, tree.node? (location ++ [temporaryName n]) = none := by
  by_contra full
  push Not at full
  let names := (List.range (tree.nodes.length + 1)).map fun n => location ++ [temporaryName n]
  have distinct : names.Nodup := by
    refine List.nodup_range.map fun m n same => temporaryName_injective ?_
    exact List.singleton_injective (List.append_cancel_left same)
  have taken : names ⊆ Entries.keys tree.nodes := by
    intro name member
    obtain ⟨n, below, rfl⟩ := List.mem_map.mp member
    obtain ⟨node, here⟩ := Option.ne_none_iff_exists'.mp (full n (List.mem_range.mp below))
    rw [FileTree.node?, if_neg (ordinary_temporary location n)] at here
    exact List.mem_map_of_mem (Entries.mem_of_get? here)
  have fewer := (List.subperm_of_subset distinct taken).length_le
  simp only [names, Entries.keys, List.length_map, List.length_range] at fewer
  exact Nat.not_succ_le_self _ fewer

theorem freshName_free (tree : FileTree) (location : Location) :
    ∃ n, freshName tree location = temporaryName n ∧
      tree.node? (location ++ [temporaryName n]) = none := by
  let names := (List.range (tree.nodes.length + 1)).map temporaryName
  let free (name : Text) : Bool := (tree.node? (location ++ [name])).isNone
  have fresh : freshName tree location = (names.find? free).getD (temporaryName 0) := rfl
  cases found : names.find? free with
  | none =>
    obtain ⟨n, below, here⟩ := exists_free tree location
    have taken := List.find?_eq_none.mp found (temporaryName n)
      (List.mem_map_of_mem (List.mem_range.mpr below))
    simp [free, here] at taken
  | some name =>
    obtain ⟨n, _, rfl⟩ := List.mem_map.mp (List.mem_of_find?_eq_some found)
    have here : free (temporaryName n) = true := List.find?_some found
    exact ⟨n, by rw [fresh, found]; rfl, Option.isNone_iff_eq_none.mp here⟩

/-! What writing a file does. -/

/-- What a tree becomes when the text of a key is written into it: its directory is made, the path
of the key then leads to a place that is no directory, and the text can be encoded. -/
inductive Written (directory : Path) (tree : FileTree) (key text : Text) : FileTree → Prop
  | intro {made : FileTree} {target : Location} {bytes : Bytes}
      (done : tree.makeDirectory directory = .ok made)
      (found : made.locate (fileOf directory key) = .ok target)
      (free : made.node? target ≠ some .directory) (encoded : Text.encodeUtf8 text = some bytes) :
      Written directory tree key text (made.place target (.file (.bytes bytes)))

section
variable {refuses : WriteStep → Bool} {directory : Path} {tree next : FileTree} {key text : Text}

theorem Written.unique {other : FileTree} (written : Written directory tree key text next)
    (written' : Written directory tree key text other) : next = other := by
  obtain ⟨done, found, _, encoded⟩ := written
  obtain ⟨done', found', _, encoded'⟩ := written'
  cases done.symm.trans done'
  cases found.symm.trans found'
  cases encoded.symm.trans encoded'
  rfl

/-- What may be left of a tree where writing fails: the files that there were, and a temporary one if
the system let it be made and not be removed. -/
inductive Remains (refuses : WriteStep → Bool) (tree : FileTree) : FileTree → Prop
  | clean {next : FileTree} (kept : tree.Retains next) : Remains refuses tree next
  | littered {made : FileTree} {location : Location} {n : Nat} {content : Content}
      (kept : tree.Retains made) (allowed : refuses .openTemporary = false)
      (denied : refuses .removeTemporary = true)
      (unused : made.node? (location ++ [temporaryName n]) = none) :
      Remains refuses tree (made.place (location ++ [temporaryName n]) (.file content))

theorem giveUp_remains {made : FileTree} {location : Location} {n : Nat} (kept : tree.Retains made)
    (allowed : refuses .openTemporary = false)
    (unused : made.node? (location ++ [temporaryName n]) = none) (path : Path)
    (reason : StorageError) (content : Content) :
    ∃ error next, giveUp refuses path (location ++ [temporaryName n]) reason
        (made.place (location ++ [temporaryName n]) (.file content)) = (some error, next) ∧
      Remains refuses tree next := by
  unfold giveUp
  cases denied : refuses .removeTemporary with
  | true => exact ⟨_, _, rfl, .littered kept allowed denied unused⟩
  | false =>
    simp only [FileTree.withdrawn unused, Bool.false_eq_true, if_false]
    exact ⟨_, _, rfl, .clean kept⟩

/-- Writing goes through if the text can be written and none of the steps up to the last is refused.
Otherwise it fails. -/
theorem setFileUnder_cases (refuses : WriteStep → Bool) (directory : Path) (tree : FileTree)
    (key text : Text) :
    (∃ error next, setFileUnder refuses directory tree key text = (some error, next) ∧
        Remains refuses tree next ∧ ((∀ step ≠ .removeTemporary, refuses step = false) →
          ∀ last, ¬ Written directory tree key text last)) ∨
      ∃ next, setFileUnder refuses directory tree key text = (none, next) ∧
        (∀ step ≠ .removeTemporary, refuses step = false) ∧
        Written directory tree key text next := by
  have refused {step : WriteStep} (denied : refuses step = true) (other : step ≠ .removeTemporary)
      (allowed : ∀ step ≠ .removeTemporary, refuses step = false) (last : FileTree) :
      ¬ Written directory tree key text last := by
    rw [allowed step other] at denied
    cases denied
  unfold setFileUnder
  cases first : refuses .makeDirectory with
  | true => exact .inl ⟨_, tree, rfl, .clean (.refl tree), refused first (by decide)⟩
  | false =>
    cases done : tree.makeDirectory directory with
    | error error =>
      refine .inl ⟨_, tree, rfl, .clean (.refl tree), ?_⟩
      rintro _ _ ⟨done', _, _, _⟩
      cases done.symm.trans done'
    | ok made =>
      have kept := FileTree.Retains.makeDirectory done
      obtain ⟨location, located, _⟩ := FileTree.locate_made done
      obtain ⟨n, fresh, unused⟩ := freshName_free made location
      simp only [located, fresh, FileTree.place_place, Bool.false_eq_true, if_false]
      cases second : refuses .openTemporary with
      | true => exact .inl ⟨_, made, rfl, .clean kept, refused second (by decide)⟩
      | false =>
        have given := giveUp_remains kept second unused (fileOf directory key)
        cases encoded : Text.encodeUtf8 text with
        | none =>
          obtain ⟨error, next, failed, remains⟩ := given .unencodable (.bytes [])
          refine .inl ⟨error, next, failed, remains, ?_⟩
          rintro _ _ ⟨_, _, _, encoded'⟩
          cases encoded.symm.trans encoded'
        | some bytes =>
          cases third : refuses .fillTemporary with
          | true =>
            obtain ⟨error, next, failed, remains⟩ := given (.unwritable _) (.bytes [])
            exact .inl ⟨error, next, failed, remains, refused third (by decide)⟩
          | false =>
            cases fourth : refuses .replace with
            | true =>
              obtain ⟨error, next, failed, remains⟩ := given (.unwritable _) (.bytes bytes)
              exact .inl ⟨error, next, failed, remains, refused fourth (by decide)⟩
            | false =>
              have onto (next : FileTree) := @FileTree.move_placed made _ unused (.bytes bytes)
                (fileOf directory key) next
              simp only [Bool.false_eq_true, if_false]
              cases moved : (made.place (location ++ [temporaryName n]) (.file (.bytes bytes))).move
                  (location ++ [temporaryName n]) (fileOf directory key) with
              | error problem =>
                obtain ⟨error, next, failed, remains⟩ :=
                  given (report .unwritable _ problem) (.bytes bytes)
                refine .inl ⟨error, next, failed, remains, ?_⟩
                rintro _ _ ⟨done', found, free, encoded'⟩
                cases done.symm.trans done'
                cases encoded.symm.trans encoded'
                cases moved.symm.trans ((onto _).mpr ⟨_, found, free, rfl⟩)
              | ok next =>
                obtain ⟨target, found, free, rfl⟩ := (onto next).mp moved
                refine .inr ⟨_, rfl, ?_, .intro done found free encoded⟩
                rintro (_ | _ | _ | _ | _) other
                · exact first
                · exact second
                · exact third
                · exact fourth
                · exact absurd rfl other

theorem setFileUnder_done_iff : setFileUnder refuses directory tree key text = (none, next) ↔
    (∀ step ≠ .removeTemporary, refuses step = false) ∧ Written directory tree key text next := by
  obtain ⟨error, last, failed, _, unwritten⟩ | ⟨last, done, allowed, written⟩ :=
    setFileUnder_cases refuses directory tree key text
  · rw [failed]
    simpa using fun allowed => unwritten allowed next
  · rw [done]
    simp only [Prod.mk.injEq, true_and]
    constructor
    · rintro rfl
      exact ⟨allowed, written⟩
    · exact fun ⟨_, written'⟩ => written.unique written'

theorem remains_of_failed {error : StorageError}
    (failed : setFileUnder refuses directory tree key text = (some error, next)) :
    Remains refuses tree next := by
  obtain ⟨_, _, failed', remains, _⟩ | ⟨_, done, _⟩ :=
    setFileUnder_cases refuses directory tree key text
  · cases failed.symm.trans failed'
    exact remains
  · cases failed.symm.trans done

theorem Remains.retains (remains : Remains refuses tree next)
    (removes : refuses .openTemporary = false → refuses .removeTemporary = false) :
    tree.Retains next := by
  cases remains with
  | clean kept => exact kept
  | littered _ allowed denied _ => simp [removes allowed] at denied

end

theorem set_files_eq (directory : Path) (tree : FileTree) (key text : Text) :
    (files directory tree).set key text
      = ((setFileUnder (fun _ => false) directory tree key text).1,
        files directory (setFileUnder (fun _ => false) directory tree key text).2) := rfl

/-- A plain text that a medium took can be read back. -/
theorem get_set {medium next : Medium} {key text : Text} (plain : text.isPlain = true)
    (taken : medium.set key text = (none, next)) : next.get key = .ok (some text) := by
  cases medium with
  | memory items =>
    simp only [set, Prod.mk.injEq, true_and] at taken
    subst taken
    simp [get, Entries.get?_put]
  | files directory tree =>
    obtain ⟨bytes, encoded, decoded⟩ := Text.decodeUtf8_encodeUtf8 (Text.isScalar_of_isPlain plain)
    rw [set_files_eq] at taken
    cases done : setFileUnder (fun _ => false) directory tree key text with
    | mk error? last =>
    rw [done] at taken
    cases taken
    obtain ⟨_, _, found, free, encoded'⟩ := setFileUnder_done_iff.mp done
    cases encoded.symm.trans encoded'
    have found := FileTree.find_place found free (.bytes bytes)
    simp [get, FileTree.read, bind, Except.bind, found, pure, Except.pure, Content.encode, decoded,
      Text.unifyLineEnds_plain plain]

section
variable {medium next : Medium} {directory : Path} {tree other : FileTree} {key : Text}

private theorem get_files_none :
    (files directory tree).get key = .ok none ↔
      tree.find (fileOf directory key) = .error .missing := by
  simp only [get, FileTree.read, bind, Except.bind]
  cases tree.find (fileOf directory key) with
  | error error => cases error <;> simp
  | ok node =>
    cases node with
    | directory => simp [throw, throwThe, MonadExceptOf.throw]
    | file content =>
      simp only [pure, Except.pure]
      split <;> simp

private theorem get_files_some {t : Text} (got : (files directory tree).get key = .ok (some t)) :
    ∃ node, tree.find (fileOf directory key) = .ok node := by
  cases found : tree.find (fileOf directory key) with
  | ok node => exact ⟨node, rfl⟩
  | error error =>
    simp only [get, FileTree.read, bind, Except.bind, found] at got
    cases error <;> cases got

private theorem get_files_congr
    (same : other.find (fileOf directory key) = tree.find (fileOf directory key)) :
    (files directory other).get key = (files directory tree).get key := by
  simp only [get, FileTree.read, bind, Except.bind, same]

/-- A text that a medium could not take leaves the text that there was. -/
theorem get_set_failed {text t : Text} {error : StorageError}
    (failed : medium.set key text = (some error, next)) (got : medium.get key = .ok (some t)) :
    next.get key = .ok (some t) := by
  cases medium with
  | memory items => cases failed
  | files directory tree =>
    rw [set_files_eq] at failed
    cases done : setFileUnder (fun _ => false) directory tree key text with
    | mk error? last =>
    rw [done] at failed
    cases failed
    have kept := (remains_of_failed done).retains fun _ => rfl
    obtain ⟨node, found⟩ := get_files_some got
    rw [get_files_congr ((kept.find found).trans found.symm), got]

theorem remove_files (directory : Path) (tree : FileTree) (key : Text) :
    (∃ error, (files directory tree).remove key = (some error, files directory tree)) ∨
      (files directory tree).remove key = (none, files directory tree) ∧
        tree.find (fileOf directory key) = .error .missing ∨
      ∃ location content, tree.locate (fileOf directory key) = .ok location ∧
        tree.node? location = some (.file content) ∧
        (files directory tree).remove key
          = (none, files directory ⟨Entries.erase location tree.nodes⟩) := by
  simp only [remove, FileTree.remove, FileTree.find, bind, Except.bind]
  cases located : tree.locate (fileOf directory key) with
  | error error => cases error <;> simp [pure, Except.pure, throw, throwThe, MonadExceptOf.throw]
  | ok location =>
    cases here : tree.node? location with
    | none => simp [here, pure, Except.pure, throw, throwThe, MonadExceptOf.throw]
    | some node =>
      cases node <;> simp [here, pure, Except.pure, throw, throwThe, MonadExceptOf.throw]

theorem get_remove (taken : medium.remove key = (none, next)) : next.get key = .ok none := by
  cases medium with
  | memory items =>
    cases taken
    simp [get, Entries.get?_erase]
  | files directory tree =>
    rcases remove_files directory tree key with
      ⟨error, failed⟩ | ⟨done, lost⟩ | ⟨location, content, located, here, done⟩
    · rw [failed] at taken
      cases taken
    · rw [done] at taken
      cases taken
      exact get_files_none.mpr lost
    · rw [done] at taken
      cases taken
      apply get_files_none.mpr
      have found := FileTree.find_eq_ok.mpr ⟨location, located, here⟩
      exact FileTree.find_erased here located

/-- Whichever key is removed, another one keeps its text or has none, and gets no text. -/
theorem get_of_remove (medium : Medium) (removed key : Text) {t? : Option Text}
    (got : medium.get key = .ok t?) :
    (medium.remove removed).2.get key = .ok t? ∨ (medium.remove removed).2.get key = .ok none := by
  cases medium with
  | memory items =>
    simp only [remove, get, Entries.get?_erase, Except.ok.injEq] at got ⊢
    split_ifs
    · exact .inr rfl
    · exact .inl got
  | files directory tree =>
    rcases remove_files directory tree removed with
      ⟨error, failed⟩ | ⟨done, lost⟩ | ⟨location, content, located, here, done⟩
    · rw [failed]
      exact .inl got
    · rw [done]
      exact .inl got
    · rw [done]
      cases t? with
      | none =>
        have lost := FileTree.find_erase_missing here (get_files_none.mp got)
        exact .inr (get_files_none.mpr lost)
      | some t =>
        obtain ⟨node, found⟩ := get_files_some got
        rcases FileTree.find_erase here found with same | lost
        · exact .inl ((get_files_congr (same.trans found.symm)).trans got)
        · exact .inr (get_files_none.mpr lost)

end

end Medium
end Intake
