import ConwayTx.Builder
import ConwayTx.Proofs.Script

/-!
# Attached scripts

Scripts are told apart by their hashes. As long as no two of them share a hash, a builder carries every
script that is attached (`attachScript_of_notMem`, `mem_scripts_foldl`).
-/

namespace ConwayTx

/-- No two scripts have one hash unless the same bytes are hashed. -/
def Script.NoCollision (scripts : List Script) : Prop :=
  ∀ a ∈ scripts, ∀ b ∈ scripts,
    blake2b224 a.hashedBytes = blake2b224 b.hashedBytes → a.hashedBytes = b.hashedBytes

theorem Script.noCollision_of_nodup {scripts : List Script} (distinct : (scripts.map hash).Nodup) :
    NoCollision scripts := by
  intro a memA b memB hashes
  have same : a = b := List.inj_on_of_nodup_map distinct memA memB hashes
  rw [same]

theorem Script.NoCollision.subset {few many : List Script} (apart : NoCollision many)
    (subset : few ⊆ many) : NoCollision few :=
  fun a memA b memB => apart a (subset memA) b (subset memB)

namespace Builder

variable {b : Builder} {s : Script}

theorem attachScript_of_mem (mem : s ∈ b.scripts) : b.attachScript s = b := by
  rw [attachScript, if_pos]
  exact List.any_eq_true.2 ⟨s, mem, decide_eq_true rfl⟩

theorem attachScript_of_notMem (short : s.toCbor.length < UInt64.size)
    (apart : Script.NoCollision (s :: b.scripts)) (absent : s ∉ b.scripts) :
    b.attachScript s = { b with scripts := b.scripts ++ [s] } := by
  rw [attachScript, if_neg]
  intro found
  obtain ⟨other, carried, hashes⟩ := List.any_eq_true.1 found
  have bytes := apart s (.head _) other (.tail _ carried) (of_decide_eq_true hashes).symm
  have same := Script.hashedBytes_inj (s.length_hashedBytes_lt.trans short) bytes
  exact absent (same ▸ carried)

theorem mem_scripts_attachScript (short : s.toCbor.length < UInt64.size)
    (apart : Script.NoCollision (s :: b.scripts)) {t : Script} :
    t ∈ (b.attachScript s).scripts ↔ t ∈ b.scripts ∨ t = s := by
  by_cases mem : s ∈ b.scripts
  · rw [attachScript_of_mem mem]
    constructor
    · exact .inl
    · rintro (carried | rfl)
      · exact carried
      · exact mem
  · rw [attachScript_of_notMem short apart mem, List.mem_append, List.mem_singleton]

/-- Of scripts that are attached one after another none is missing. -/
theorem mem_scripts_foldl {scripts : List Script}
    (short : ∀ s ∈ scripts, s.toCbor.length < UInt64.size)
    (apart : Script.NoCollision (b.scripts ++ scripts)) {t : Script} :
    t ∈ (scripts.foldl attachScript b).scripts ↔ t ∈ b.scripts ∨ t ∈ scripts := by
  induction scripts generalizing b with
  | nil => simp
  | cons s rest ih =>
    obtain ⟨first, others⟩ := List.forall_mem_cons.1 short
    have here : Script.NoCollision (s :: b.scripts) := by
      apply apart.subset
      intro x mem
      rcases List.mem_cons.1 mem with rfl | carried
      · exact List.mem_append_right _ (.head _)
      · exact List.mem_append_left _ carried
    have step {x : Script} : x ∈ (b.attachScript s).scripts ↔ x ∈ b.scripts ∨ x = s :=
      mem_scripts_attachScript first here
    have later : Script.NoCollision ((b.attachScript s).scripts ++ rest) := by
      apply apart.subset
      intro x mem
      rcases List.mem_append.1 mem with carried | listed
      · rcases step.1 carried with before | rfl
        · exact List.mem_append_left _ before
        · exact List.mem_append_right _ (.head _)
      · exact List.mem_append_right _ (.tail _ listed)
    rw [List.foldl_cons, ih others later, step, List.mem_cons, or_assoc]

/-- Scripts are hashed and referenced as bytes of no other script. So as long as no two different byte
strings among them share a hash, a script is left out only where the same script is carried already,
and none is lost. Headers state lengths in a word. -/
theorem attachScript_distinct :
    (∀ s t : Script, s.toCbor.length < UInt64.size →
      (s.hashedBytes = t.hashedBytes ↔ s = t) ∧ (s.toCbor.encode = t.toCbor.encode ↔ s = t)) ∧
    ∀ (b : Builder) (scripts : List Script), (∀ s ∈ scripts, s.toCbor.length < UInt64.size) →
      Script.NoCollision (b.scripts ++ scripts) →
        (∀ s ∈ scripts, s ∉ b.scripts →
          b.attachScript s = { b with scripts := b.scripts ++ [s] }) ∧
        ∀ t, t ∈ (scripts.foldl attachScript b).scripts ↔ t ∈ b.scripts ∨ t ∈ scripts := by
  constructor
  · intro s t short
    constructor
    · apply Script.hashedBytes_eq_iff
      exact s.length_hashedBytes_lt.trans short
    · exact Script.toCbor_encode_eq_iff short
  · intro b scripts short apart
    constructor
    · intro s mem absent
      apply attachScript_of_notMem (short s mem) _ absent
      apply apart.subset
      intro x listed
      rcases List.mem_cons.1 listed with rfl | carried
      · exact List.mem_append_right _ mem
      · exact List.mem_append_left _ carried
    · intro t
      exact mem_scripts_foldl short apart

/-- Bytes of two languages, beside a native script. -/
theorem attachScript_distinct_versions :
    let b : Builder := { scripts := [.plutus ⟨.v1, [1, 2]⟩] }
    let native : Script := .native (.atLeast 1 [.notBefore 5, .all []])
    let same : Script := .plutus ⟨.v2, [1, 2]⟩
    let scripts := [native, same]
    (∀ s ∈ scripts, s.toCbor.length < UInt64.size) ∧ Script.NoCollision (b.scripts ++ scripts) ∧
      native.hashedBytes ≠ same.hashedBytes ∧
      b.attachScript same = { b with scripts := b.scripts ++ [same] } ∧
      native ∈ (scripts.foldl attachScript b).scripts := by
  intro b native same scripts
  have short : ∀ s ∈ scripts, s.toCbor.length < UInt64.size := by decide +kernel
  have apart : Script.NoCollision (b.scripts ++ scripts) := by
    apply Script.noCollision_of_nodup
    decide +kernel
  obtain ⟨bytes, run⟩ := attachScript_distinct
  have differ : native.hashedBytes ≠ same.hashedBytes := fun equal =>
    nomatch (bytes native same (short _ (.head _))).1.1 equal
  obtain ⟨step, run⟩ := run b scripts short apart
  have absent : same ∉ b.scripts := by simp [same, b]
  exact ⟨short, apart, differ, step same (by simp [scripts]) absent, (run native).2 (.inr (.head _))⟩

end Builder

end ConwayTx
