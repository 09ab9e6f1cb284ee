import Mathlib.Data.Nat.Find
import PointLedger.Chain

/-!
What the verification of a chain reports. The walk stands at a place of the chain only when every
entry before it follows the one before that, and then it holds the hash of the entry just behind it.
So it stops at the first entry that does not follow, whatever comes after, and says which of the two
rules this entry breaks; where both are broken it reports the digest.
-/

namespace PointLedger

/-! ### Entries that follow one another -/

/-- The entry carries the hash that belongs to its fields and points at the hash `link`. -/
structure Entry.Follows (e : Entry) (link : String) : Prop where
  digest : e.computeHash = e.hash
  link : e.previousHash = link

theorem Entry.fault?_eq_none_iff {e : Entry} {link : String} :
    e.fault? link = none ↔ e.Follows link := by
  unfold fault?
  constructor
  · intro sound
    by_cases digest : e.computeHash = e.hash <;> by_cases linked : e.previousHash = link
    · exact ⟨digest, linked⟩
    all_goals simp [digest, linked] at sound
  · rintro ⟨digest, linked⟩
    simp [digest, linked]

/-- The hash that the entry at a place has to point at: that of the entry before it, or the genesis
hash at the start. -/
def linkBefore (entries : List Entry) : Nat → String
  | 0 => genesisHash
  | i + 1 => (entries[i]?.map Entry.hash).getD genesisHash

/-- The entry at a place, if there is one, follows the one before it. -/
def SoundAt (entries : List Entry) (i : Nat) : Prop :=
  ∀ e, entries[i]? = some e → e.Follows (linkBefore entries i)

/-- What a report has to say about a chain. -/
inductive ChainVerdict (entries : List Entry) : ChainReport → Prop where
  /-- Every entry follows the one before it. -/
  | intact (sound : ∀ i, SoundAt entries i) :
    ChainVerdict entries
      ⟨true, entries.length, (entries.getLast?.map Entry.hash).getD genesisHash, none⟩
  /-- The first entry that does not follow carries another hash than belongs to its fields. -/
  | digest (i : Nat) (e : Entry) (here : entries[i]? = some e)
      (before : ∀ j < i, SoundAt entries j) (wrong : e.computeHash ≠ e.hash) :
    ChainVerdict entries ⟨false, i + 1, linkBefore entries i,
      some ⟨i, e.id, .hashMismatch e.computeHash e.hash⟩⟩
  /-- The first entry that does not follow carries its own hash, and points at another one than that
  of the entry before it. -/
  | link (i : Nat) (e : Entry) (here : entries[i]? = some e)
      (before : ∀ j < i, SoundAt entries j) (right : e.computeHash = e.hash)
      (wrong : e.previousHash ≠ linkBefore entries i) :
    ChainVerdict entries ⟨false, i + 1, linkBefore entries i,
      some ⟨i, e.id, .linkMismatch (linkBefore entries i) e.previousHash⟩⟩

/-! ### The walk -/

variable {entries : List Entry} {report : ChainReport}

/-- Behind sound entries the walk stands at the next place, with the hash of the last one. -/
theorem verifyChain_eq_verifyFrom {i : Nat} (within : i ≤ entries.length)
    (before : ∀ j < i, SoundAt entries j) :
    verifyChain entries = verifyFrom (linkBefore entries i) i (entries.drop i) := by
  induction i with
  | zero => rfl
  | succ i ih =>
    have here : entries[i]? = some entries[i] := List.getElem?_eq_getElem within
    have sound := Entry.fault?_eq_none_iff.mpr (before i i.lt_succ_self _ here)
    have next : linkBefore entries (i + 1) = entries[i].hash := by simp [linkBefore, here]
    rw [ih (Nat.le_of_lt within) fun j earlier => before j (Nat.lt_succ_of_lt earlier),
      List.drop_eq_getElem_cons within, verifyFrom, next]
    simp only [sound]

theorem linkBefore_length (entries : List Entry) :
    linkBefore entries entries.length = (entries.getLast?.map Entry.hash).getD genesisHash := by
  rw [List.getLast?_eq_getElem?]
  cases entries <;> simp [linkBefore]

/-- At an entry with a fault the walk ends. -/
theorem verifyChain_of_fault {i : Nat} {e : Entry} {fault : ChainFault}
    (here : entries[i]? = some e) (before : ∀ j < i, SoundAt entries j)
    (found : e.fault? (linkBefore entries i) = some fault) :
    verifyChain entries = ⟨false, i + 1, linkBefore entries i, some ⟨i, e.id, fault⟩⟩ := by
  obtain ⟨within, rfl⟩ := List.getElem?_eq_some_iff.mp here
  rw [verifyChain_eq_verifyFrom (Nat.le_of_lt within) before, List.drop_eq_getElem_cons within,
    verifyFrom]
  simp only [found]

namespace ChainVerdict

theorem verifyChain_eq (verdict : ChainVerdict entries report) : verifyChain entries = report := by
  cases verdict with
  | intact sound =>
    rw [verifyChain_eq_verifyFrom le_rfl fun j _ => sound j, List.drop_length, verifyFrom,
      linkBefore_length]
  | digest i e here before wrong =>
    exact verifyChain_of_fault here before (by simp [Entry.fault?, wrong])
  | link i e here before right wrong =>
    exact verifyChain_of_fault here before (by simp [Entry.fault?, right, wrong])

/-- There is a verdict on every chain. -/
theorem exists_verdict (entries : List Entry) : ∃ report, ChainVerdict entries report := by
  classical
  by_cases sound : ∀ i, SoundAt entries i
  · exact ⟨_, .intact sound⟩
  · have broken : ∃ i, ¬ SoundAt entries i := not_forall.mp sound
    obtain ⟨i, unsound, before⟩ : ∃ i, ¬ SoundAt entries i ∧ ∀ j < i, SoundAt entries j :=
      ⟨Nat.find broken, Nat.find_spec broken, fun j earlier =>
        not_not.mp (Nat.find_min broken earlier)⟩
    simp only [SoundAt, not_forall] at unsound
    obtain ⟨e, here, unsound⟩ := unsound
    by_cases digest : e.computeHash = e.hash
    · exact ⟨_, .link i e here before digest fun linked => unsound ⟨digest, linked⟩⟩
    · exact ⟨_, .digest i e here before digest⟩

theorem valid_iff (verdict : ChainVerdict entries report) :
    report.valid = true ↔ ∀ i, SoundAt entries i := by
  cases verdict with
  | intact sound => exact iff_of_true rfl sound
  | digest i e here _ wrong =>
    exact iff_of_false Bool.false_ne_true fun sound => wrong (sound i e here).digest
  | link i e here _ _ wrong =>
    exact iff_of_false Bool.false_ne_true fun sound => wrong (sound i e here).link

end ChainVerdict

/-- A chain of any entries verifies when every entry follows the one before it, and the report of
the verification is the one verdict that there is on the chain. -/
theorem verifyChain_first_break (entries : List Entry) :
    ((verifyChain entries).valid = true ↔ ∀ i, SoundAt entries i) ∧
      ∀ report, verifyChain entries = report ↔ ChainVerdict entries report := by
  obtain ⟨report, verdict⟩ := ChainVerdict.exists_verdict entries
  obtain rfl := verdict.verifyChain_eq
  refine ⟨verdict.valid_iff, fun report => ⟨?_, ChainVerdict.verifyChain_eq⟩⟩
  rintro rfl
  exact verdict

end PointLedger
