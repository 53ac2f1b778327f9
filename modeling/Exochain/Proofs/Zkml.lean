/-
**`exo-proofs` — inference proofs.**

A proof ties a committed model, an input and an output together with two hashes: the proof itself, and a
verification tag over the same three hashes and the proof. The verifier computes both again. The prompt,
the attestation of the reviewer and the other records of provenance stand beside them.

* `verifyInference_proveInference`, `verifyInference_withProvenance` — the verifier accepts what the prover
  makes, with a prompt or without.
* **`verification_tag_binds_iff`** — two accepted proofs with one tag have the same model, input and output;
  they have the same prompt exactly if their prompt hashes are the same, which no hash covers.
* `Sample.prompt_replaced` — two accepted proofs with one tag and two prompts.
-/

import Exochain.Foundation.Blake3
import Exochain.Foundation.Codes
import Exochain.Foundation.Merkle
import Exochain.Core.Types

set_option linter.unusedSectionVars false

namespace Exochain.ExoProofs

open Foundation ExoCore

/-! ### Models -/

/-- A commitment to a model. -/
structure ModelCommitment where
  architectureHash : Hash256
  weightsHash : Hash256
  version : UInt64
  deriving DecidableEq

namespace ModelCommitment

/-- Commit to a model. -/
def new (blake3 : Blake3) (architecture weights : List UInt8) (version : UInt64) : ModelCommitment where
  architectureHash := Hash256.digest blake3 architecture
  weightsHash := Hash256.digest blake3 weights
  version := version

/-- The string of a commitment. -/
def string (model : ModelCommitment) : List UInt8 :=
  textBytes "zkml:model:" ++ (concatBlocks [model.architectureHash, model.weightsHash] ++
    wordBytes model.version)

/-- The hash of a commitment. -/
def commitmentHash (blake3 : Blake3) (model : ModelCommitment) : Hash256 :=
  Hash256.digest blake3 model.string

/-- A commitment can be read back from its string. -/
theorem string_injective : Function.Injective string := by
  rintro ⟨architecture, weights, version⟩ ⟨architecture', weights', version'⟩ same
  obtain ⟨hashes, versions⟩ := List.append_inj (List.append_cancel_left same)
    (by rw [length_concatBlocks, length_concatBlocks]; rfl)
  have blocks := concatBlocks_injective (by omega) hashes
  simp only [List.cons.injEq, and_true] at blocks
  obtain ⟨rfl, rfl⟩ := blocks
  obtain rfl : version = version' := wordBytes_injective versions
  rfl

end ModelCommitment

/-! ### Provenance -/

/-- What the reviewer did with the output. -/
inductive AttestationDecision where
  | adopted
  | modified
  | rejected
  deriving DecidableEq, Repr

/-- The signed attestation of the reviewer. -/
structure HumanAttestation where
  reviewerDid : String
  reviewerPublicKey : PublicKey
  aiRecommendationHash : Hash256
  finalDecisionHash : Hash256
  decision : AttestationDecision
  signature : Signature
  deriving DecidableEq

/-- How the recommendation and the decision differ. -/
structure AiDelta where
  aiOutputHash : Hash256
  humanOutputHash : Hash256
  divergenceDetected : Bool
  deriving DecidableEq

/-- The admissibility of the method. -/
structure DaubertChecklist where
  methodologyDocumented : Bool
  peerReviewable : Bool
  knownErrorRate : Option String
  generallyAccepted : Bool
  deriving DecidableEq

/-! ### Proofs -/

/-- A proof of an inference. -/
structure InferenceProof where
  modelCommitment : ModelCommitment
  inputHash : Hash256
  outputHash : Hash256
  proof : Hash256
  verificationTag : Hash256
  promptHash : Option Hash256
  humanAttestation : Option HumanAttestation
  aiDelta : Option AiDelta
  daubertChecklist : Option DaubertChecklist
  deriving DecidableEq

/-- The string of the proof. -/
def inferenceString (modelHash inputHash outputHash : Hash256) : List UInt8 :=
  textBytes "zkml:proof:" ++ concatBlocks [modelHash, inputHash, outputHash]

/-- The string of the verification tag. -/
def tagString (modelHash inputHash outputHash proof : Hash256) : List UInt8 :=
  textBytes "zkml:verify:" ++ concatBlocks [modelHash, inputHash, outputHash, proof]

section Hashing

variable (blake3 : Blake3)

/-- The proof that ties model, input and output together. -/
def computeInferenceProof (modelHash inputHash outputHash : Hash256) : Hash256 :=
  Hash256.digest blake3 (inferenceString modelHash inputHash outputHash)

/-- The verification tag. -/
def computeVerificationTag (modelHash inputHash outputHash proof : Hash256) : Hash256 :=
  Hash256.digest blake3 (tagString modelHash inputHash outputHash proof)

/-- Prove an inference, without provenance. -/
def proveInference (model : ModelCommitment) (input output : List UInt8) : InferenceProof :=
  let inputHash := Hash256.digest blake3 input
  let outputHash := Hash256.digest blake3 output
  let modelHash := model.commitmentHash blake3
  let proof := computeInferenceProof blake3 modelHash inputHash outputHash
  { modelCommitment := model
    inputHash := inputHash
    outputHash := outputHash
    proof := proof
    verificationTag := computeVerificationTag blake3 modelHash inputHash outputHash proof
    promptHash := none
    humanAttestation := none
    aiDelta := none
    daubertChecklist := none }

/-- Prove an inference, with the hash of the prompt. -/
def proveInferenceWithProvenance (model : ModelCommitment) (prompt input output : List UInt8) :
    InferenceProof :=
  { proveInference blake3 model input output with promptHash := some (Hash256.digest blake3 prompt) }

/-- Verify a proof. -/
def verifyInference (proof : InferenceProof) : Bool :=
  let modelHash := proof.modelCommitment.commitmentHash blake3
  if computeInferenceProof blake3 modelHash proof.inputHash proof.outputHash ≠ proof.proof then false
  else computeVerificationTag blake3 modelHash proof.inputHash proof.outputHash proof.proof =
    proof.verificationTag

end Hashing

/-! ### What the tag binds -/

namespace InferenceProof

/-- The strings that are hashed to verify a proof. -/
def strings (blake3 : Blake3) (proof : InferenceProof) : List (List UInt8) :=
  let modelHash := proof.modelCommitment.commitmentHash blake3
  [proof.modelCommitment.string, inferenceString modelHash proof.inputHash proof.outputHash,
    tagString modelHash proof.inputHash proof.outputHash proof.proof]

/-- Two proofs about the same model, prompt, input and output. -/
structure SameInference (proof proof' : InferenceProof) : Prop where
  model : proof.modelCommitment = proof'.modelCommitment
  input : proof.inputHash = proof'.inputHash
  output : proof.outputHash = proof'.outputHash
  prompt : proof.promptHash = proof'.promptHash

end InferenceProof

section Verified

variable {blake3 : Blake3} {proof proof' : InferenceProof}

theorem verifyInference_iff : verifyInference blake3 proof = true ↔
    proof.proof = computeInferenceProof blake3 (proof.modelCommitment.commitmentHash blake3)
      proof.inputHash proof.outputHash ∧
    proof.verificationTag = computeVerificationTag blake3
      (proof.modelCommitment.commitmentHash blake3) proof.inputHash proof.outputHash proof.proof := by
  unfold verifyInference
  by_cases proofs : computeInferenceProof blake3 (proof.modelCommitment.commitmentHash blake3)
      proof.inputHash proof.outputHash = proof.proof
  · simp only [ne_eq, proofs, not_true_eq_false, if_false, decide_eq_true_eq]
    exact ⟨fun tags => ⟨trivial, tags.symm⟩, fun both => both.2.symm⟩
  · simp only [ne_eq, proofs, not_false_eq_true, if_true]
    exact iff_of_false Bool.false_ne_true fun both => proofs both.1.symm

/-- The verifier accepts what the prover makes. -/
theorem verifyInference_proveInference (model : ModelCommitment) (input output : List UInt8) :
    verifyInference blake3 (proveInference blake3 model input output) = true :=
  verifyInference_iff.mpr ⟨rfl, rfl⟩

/-- **The records of provenance are not looked at.** -/
theorem verifyInference_provenance (prompt : Option Hash256) (attestation : Option HumanAttestation)
    (delta : Option AiDelta) (checklist : Option DaubertChecklist) :
    verifyInference blake3 { proof with
      promptHash := prompt
      humanAttestation := attestation
      aiDelta := delta
      daubertChecklist := checklist } = verifyInference blake3 proof := rfl

theorem verifyInference_withProvenance (model : ModelCommitment) (prompt input output : List UInt8) :
    verifyInference blake3 (proveInferenceWithProvenance blake3 model prompt input output) = true :=
  verifyInference_proveInference model input output

/-- **What the verification tag binds**: two accepted proofs with one tag have the same model, input and
output. They are about the same inference exactly if they have the same prompt hash. -/
theorem verification_tag_binds_iff (verified : verifyInference blake3 proof = true)
    (verified' : verifyInference blake3 proof' = true)
    (tags : proof.verificationTag = proof'.verificationTag)
    (free : ¬ CollisionIn blake3 (proof.strings blake3 ++ proof'.strings blake3)) :
    (proof.modelCommitment = proof'.modelCommitment ∧ proof.inputHash = proof'.inputHash ∧
      proof.outputHash = proof'.outputHash) ∧
      (proof.SameInference proof' ↔ proof.promptHash = proof'.promptHash) := by
  have hashed := (verifyInference_iff.mp verified).2.symm.trans
    (tags.trans (verifyInference_iff.mp verified').2)
  have strings := eq_of_hash_eq free (by simp [InferenceProof.strings])
    (by simp [InferenceProof.strings]) hashed
  have blocks := concatBlocks_injective (by omega) (List.append_cancel_left strings)
  simp only [List.cons.injEq, and_true] at blocks
  obtain ⟨models, inputs, outputs, -⟩ := blocks
  have model : proof.modelCommitment = proof'.modelCommitment := by
    refine ModelCommitment.string_injective (eq_of_hash_eq free ?_ ?_ models)
    · simp [InferenceProof.strings]
    · simp [InferenceProof.strings]
  exact ⟨⟨model, inputs, outputs⟩, fun same => same.prompt,
    fun prompts => ⟨model, inputs, outputs, prompts⟩⟩

end Verified

namespace Sample

/-- A committed model. -/
def advisor : ModelCommitment := .new Blake3.hash (textBytes "arch") (textBytes "weights") 1

/-- The proof of one answer to one context, with the given prompt. -/
def advice (prompt : String) : InferenceProof :=
  proveInferenceWithProvenance Blake3.hash advisor (textBytes prompt) (textBytes "Q4 revenue fell.")
    (textBytes "Reject.")

theorem no_advice_collision : ¬ CollisionIn Blake3.hash
    ((advice "Recommend yes or no.").strings Blake3.hash ++
      (advice "Recommend no.").strings Blake3.hash) := by
  decide +kernel

theorem prompts_differ :
    (advice "Recommend yes or no.").promptHash ≠ (advice "Recommend no.").promptHash := by
  decide +kernel

/-- **One tag, two prompts**: nothing that is hashed depends on the prompt. -/
theorem prompt_replaced :
    ¬ ∀ proof proof' : InferenceProof, verifyInference Blake3.hash proof = true →
      verifyInference Blake3.hash proof' = true → proof.verificationTag = proof'.verificationTag →
      proof.SameInference proof' ∨
        CollisionIn Blake3.hash (proof.strings Blake3.hash ++ proof'.strings Blake3.hash) := by
  intro binds
  rcases binds (advice "Recommend yes or no.") (advice "Recommend no.")
    (verifyInference_withProvenance _ _ _ _) (verifyInference_withProvenance _ _ _ _) rfl with
    same | collision
  · exact prompts_differ same.prompt
  · exact no_advice_collision collision

/-- The two proofs are about one model, input and output, and about two inferences. -/
theorem advice_differs :
    (advice "Recommend yes or no.").outputHash = (advice "Recommend no.").outputHash ∧
      ¬ (advice "Recommend yes or no.").SameInference (advice "Recommend no.") := by
  obtain ⟨⟨-, -, outputs⟩, exactly⟩ := verification_tag_binds_iff
    (verifyInference_withProvenance advisor (textBytes "Recommend yes or no.")
      (textBytes "Q4 revenue fell.") (textBytes "Reject."))
    (verifyInference_withProvenance advisor (textBytes "Recommend no.")
      (textBytes "Q4 revenue fell.") (textBytes "Reject.")) rfl no_advice_collision
  exact ⟨outputs, fun same => prompts_differ (exactly.mp same)⟩

end Sample

end Exochain.ExoProofs
