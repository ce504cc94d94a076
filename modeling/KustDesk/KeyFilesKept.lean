import KustDesk.ServerKey

/-!
# KustDesk — KeyFilesKept

When `gen_sk` leaves a key pair in its two files alone, and when a later call
finds the pair of an earlier one. A secret key that cannot be opened is taken
for one that is not there.
-/

namespace KustDesk

open Codec

/-- Which operations on the files fail, of a call. -/
structure SkFaults where
  openFails : Bool := false
  readFails : Bool := false
  createPubFails : Bool := false
  writePubFails : Bool := false
  createSkFails : Bool := false
  writeSkFails : Bool := false

def SkEnv.faults (e : SkEnv) : SkFaults where
  openFails := e.openFails
  readFails := e.readFails
  createPubFails := e.createPubFails
  writePubFails := e.pubLeft.isSome
  createSkFails := e.createSkFails
  writeSkFails := e.skLeft.isSome

/-- A call with these faults that draws one key pair, and whose failed writes
leave an empty file. -/
def SkFaults.env (faults : SkFaults) (keypair : Keypair) : SkEnv where
  openFails := faults.openFails
  readFails := faults.readFails
  keypairs _ := keypair
  createPubFails := faults.createPubFails
  pubLeft := if faults.writePubFails then some "" else none
  createSkFails := faults.createSkFails
  skLeft := if faults.writeSkFails then some "" else none

@[simp] theorem SkFaults.faults_env (faults : SkFaults) (keypair : Keypair) :
    (faults.env keypair).faults = faults := by
  obtain ⟨openFails, readFails, createPubFails, writePubFails, createSkFails, writeSkFails⟩ := faults
  cases writePubFails <;> cases writeSkFails <;> rfl

variable (b64 : Base64)

/-- The files hold a key pair, each half as text. -/
def KeyFiles.WellFormed (files : KeyFiles) : Prop :=
  ∃ sk text, files.Holds b64 sk ∧ sk.length = secretKeyBytes ∧ files.pub = some text
    ∧ b64.decode (trim text) = some (sk.drop (secretKeyBytes / 2))

/-- With these faults a call gives a key pair: one that it reads, or one that
it writes. -/
def KeyFiles.Gives (files : KeyFiles) (faults : SkFaults) : Prop :=
  if files.sk.isSome ∧ faults.openFails = false then
    faults.readFails = false ∧ ∃ sk, files.Holds b64 sk ∧ sk.length = secretKeyBytes
  else
    faults.createPubFails = false ∧ faults.createSkFails = false ∧ faults.writeSkFails = false

/-- What is promised of two calls, the second on the files that the first one
left. -/
structure KeysKept (e e' : SkEnv) (files : KeyFiles) : Prop where
  unchanged : files.WellFormed b64 → (genSk b64 e files).2 = files
  later : ∀ pk sk, (genSk b64 e files).1 = some (pk, some sk) →
    (genSk b64 e' (genSk b64 e files).2).1 = some (pk, some sk)

variable {b64} {e e' : SkEnv} {files : KeyFiles} {faults faults' : SkFaults}

/-! ## What a call gives -/

/-- A new key pair is the one drawn, or the call gives none. -/
theorem createSk_eq (b64 : Base64) (e : SkEnv) (files : KeyFiles) :
    (createSk b64 e files).1 = ("", none)
    ∨ (createSk b64 e files).1 = (b64.encode (genLoop b64 e.keypairs 300 0).pk,
        some (genLoop b64 e.keypairs 300 0).sk) := by
  unfold createSk
  dsimp only
  cases hpub : e.createPubFails <;> cases hsk : e.createSkFails <;> cases hleft : e.skLeft <;> simp

/-- The pair that a call gives is in the file then. -/
theorem holds_of_genSk {pk : String} {sk : Bytes}
    (h : (genSk b64 e files).1 = some (pk, some sk)) : ∃ s, (genSk b64 e files).2.Holds b64 s := by
  rcases genSk_cases b64 h with ⟨-, -, hnone⟩ | ⟨-, s, -, -, -, hholds⟩
  · cases hnone
  · exact ⟨s, hholds⟩

theorem KeyFiles.Gives.of_genSk {pk : String} {sk : Bytes}
    (h : (genSk b64 e files).1 = some (pk, some sk)) : files.Gives b64 e.faults := by
  rcases genSk_cases b64 h with ⟨-, -, hnone⟩ | ⟨hworks, s, -, hlength, -, hholds⟩
  · cases hnone
  · unfold SkEnv.Fails at hworks
    unfold KeyFiles.Gives SkEnv.faults
    dsimp only
    by_cases hopen : files.sk.isSome ∧ e.openFails = false
    · rw [if_pos hopen] at hworks ⊢
      obtain ⟨contents, hfile⟩ := Option.isSome_iff_exists.mp hopen.1
      rw [genSk_read b64 hfile hopen.2] at hholds
      exact ⟨by simpa using hworks, s, hholds, hlength⟩
    · rw [if_neg hopen] at hworks ⊢
      simpa using hworks

theorem KeyFiles.Gives.genSk (h : files.Gives b64 e.faults) :
    ∃ pk sk, (genSk b64 e files).1 = some (pk, some sk) := by
  unfold KeyFiles.Gives SkEnv.faults at h
  dsimp only at h
  by_cases hopen : files.sk.isSome ∧ e.openFails = false
  · rw [if_pos hopen] at h
    obtain ⟨hread, sk, hholds, hlength⟩ := h
    rw [genSk_of_holds b64 hholds hlength hopen.2 hread]
    exact ⟨_, _, rfl⟩
  · rw [if_neg hopen] at h
    rw [genSk_create b64 hopen]
    rcases createSk_cases b64 e files with ⟨hfails, -⟩ | ⟨-, sk, hsk, -⟩
    · simp [h] at hfails
    · exact ⟨_, sk, by rw [← hsk]⟩

/-! ## Key pairs that are new -/

/-- Another key pair. -/
def otherKeypair : Keypair where
  pk := List.replicate 32 0
  sk := List.replicate 64 0
  sk_length := rfl
  public_half := rfl

/-- Whatever a text is, there is a key pair with another public key. -/
theorem exists_keypair_ne (b64 : Base64) (text : String) :
    ∃ keypair : Keypair, b64.encode keypair.pk ≠ text := by
  by_contra hall
  simp only [not_exists, Decidable.not_not] at hall
  have hencode : b64.encode sampleKeypair.pk = b64.encode otherKeypair.pk := by
    rw [hall, hall]
  have hdecode := congrArg b64.decode hencode
  rw [b64.decode_encode, b64.decode_encode, Option.some.injEq] at hdecode
  exact absurd hdecode (by decide)

theorem genLoop_env (keypair : Keypair) (n i : Nat) :
    genLoop b64 (faults.env keypair).keypairs n i = keypair := by
  obtain ⟨j, hloop⟩ := genLoop_eq b64 (faults.env keypair).keypairs n i
  exact hloop

/-- The public file of a key pair is not empty. -/
theorem KeyFiles.WellFormed.pub_ne_empty (h : files.WellFormed b64) : files.pub ≠ some "" := by
  obtain ⟨sk, text, -, hlength, hpub, hdecode⟩ := h
  intro hempty
  rw [hpub, Option.some.injEq] at hempty
  have hnil : b64.encode [] = "" := b64.encode_eq_empty.mpr rfl
  have hhalf := congrArg (Option.map List.length) hdecode
  rw [hempty, show trim "" = "" from rfl, ← hnil, b64.decode_encode] at hhalf
  simp [hlength, secretKeyBytes] at hhalf

/-- Where the secret key cannot be opened, a call can write another public
key over the one that is there. -/
theorem exists_pub_ne (hpair : files.WellFormed b64) (hopen : faults.openFails = true)
    (hpub : faults.createPubFails = false) :
    ∃ keypair, (genSk b64 (faults.env keypair) files).2.pub ≠ files.pub := by
  obtain ⟨sk, text, -, -, htext, -⟩ := id hpair
  obtain ⟨keypair, hne⟩ := exists_keypair_ne b64 text
  refine ⟨keypair, ?_⟩
  have hwritten : (genSk b64 (faults.env keypair) files).2.pub
      = some (if faults.writePubFails then "" else b64.encode keypair.pk) := by
    rw [genSk_create b64 (by simp [SkFaults.env, hopen])]
    simp only [createSk, genLoop_env]
    cases hwrite : faults.writePubFails <;> cases hsk : faults.createSkFails <;>
      cases hleft : faults.writeSkFails <;> simp [SkFaults.env, hpub, hwrite, hsk, hleft]
  rw [hwritten]
  cases hwrite : faults.writePubFails with
  | true => exact (Ne.symm hpair.pub_ne_empty)
  | false => simpa [htext] using hne

/-- A call that cannot open the secret key, or cannot read it, can give
something else than the pair that is there. -/
theorem exists_genSk_ne {sk : Bytes} (hholds : files.Holds b64 sk)
    (hfails : ¬ (faults.openFails = false ∧ faults.readFails = false)) (pk : String) (s : Bytes) :
    ∃ keypair, (genSk b64 (faults.env keypair) files).1 ≠ some (pk, some s) := by
  obtain ⟨keypair, hne⟩ := exists_keypair_ne b64 pk
  refine ⟨keypair, ?_⟩
  obtain ⟨contents, hfile, -⟩ := hholds
  cases hopen : faults.openFails with
  | false =>
      have hread : faults.readFails = true := by simpa [hopen] using hfails
      rw [genSk_read b64 hfile (by simp [SkFaults.env, hopen])]
      simp [readSk, SkFaults.env, hread]
  | true =>
      -- it draws the new pair
      rw [genSk_create b64 (by simp [SkFaults.env, hopen])]
      rcases createSk_eq b64 (faults.env keypair) files with hempty | hdrawn
      · simp [hempty]
      · simp [hdrawn, genLoop_env, hne]

/-! ## The two promises -/

theorem genSk_unchanged (h : e.openFails = false ∨ e.createPubFails = true)
    (hpair : files.WellFormed b64) : (genSk b64 e files).2 = files := by
  obtain ⟨sk, text, ⟨contents, hfile, -⟩, -⟩ := hpair
  cases hopen : e.openFails with
  | false => rw [genSk_read b64 hfile hopen]
  | true =>
      have hpub : e.createPubFails = true := by simpa [hopen] using h
      rw [genSk_create b64 (by simp [hopen])]
      simp [createSk, hpub]

theorem genSk_again {pk : String} {sk : Bytes} (hopen : e'.openFails = false)
    (hread : e'.readFails = false) (h : (genSk b64 e files).1 = some (pk, some sk)) :
    (genSk b64 e' (genSk b64 e files).2).1 = some (pk, some sk) := by
  rcases genSk_cases b64 h with ⟨-, -, hnone⟩ | ⟨-, s, hs, hlength, hpk, hholds⟩
  · cases hnone
  · rw [genSk_of_holds b64 hholds hlength hopen hread, hpk, hs]

/-- **Key files.** Two calls that fail in these ways, whatever they draw and
their failed writes leave, never damage a key pair and agree on the one that
they give, exactly if the first opens the secret key or cannot create the
public file, where there is a pair, and the second can open and read the secret
key, where the first gives one. -/
theorem key_files_kept_iff :
    (∀ e e' : SkEnv, e.faults = faults → e'.faults = faults' → KeysKept b64 e e' files)
    ↔ (files.WellFormed b64 → faults.openFails = false ∨ faults.createPubFails = true)
      ∧ (files.Gives b64 faults → faults'.openFails = false ∧ faults'.readFails = false) := by
  constructor
  · intro hkept
    constructor
    · intro hpair
      by_contra hopens
      simp only [not_or, Bool.not_eq_false, Bool.not_eq_true] at hopens
      obtain ⟨keypair, hne⟩ := exists_pub_ne hpair hopens.1 hopens.2
      have hcalls := hkept (faults.env keypair) (faults'.env keypair) (by simp) (by simp)
      exact hne (by rw [hcalls.unchanged hpair])
    · intro hgives
      by_contra hfails
      obtain ⟨pk, sk, hfirst⟩ := KeyFiles.Gives.genSk (e := faults.env sampleKeypair)
        (by simpa using hgives)
      obtain ⟨s, hholds⟩ := holds_of_genSk hfirst
      obtain ⟨keypair, hne⟩ := exists_genSk_ne hholds hfails pk sk
      have hcalls := hkept (faults.env sampleKeypair) (faults'.env keypair) (by simp) (by simp)
      exact hne (hcalls.later pk sk hfirst)
  · intro hfaults e e' he he'
    subst he he'
    constructor
    · intro hpair
      exact genSk_unchanged (hfaults.1 hpair) hpair
    · intro pk sk hfirst
      have hlater := hfaults.2 (KeyFiles.Gives.of_genSk hfirst)
      exact genSk_again hlater.1 hlater.2 hfirst

/-- The files of a key pair. -/
def keyPairFiles : KeyFiles where
  sk := keyFiles.sk
  pub := some "11qYAYKxCrfVS/7TyWQHOg7hcvPapiMlrwIaaPcHURo="

/-- A secret key that cannot be opened for reading is written over. -/
theorem unreadable_key_replaced :
    ¬ ∀ (b64 : Base64) (e e' : SkEnv) (files : KeyFiles), KeysKept b64 e e' files := by
  intro hkept
  have hcall := hkept .standard (({ openFails := true } : SkFaults).env otherKeypair) works
    keyPairFiles
  have hpair : keyPairFiles.WellFormed .standard := by
    refine ⟨sampleKeypair.sk, _, ⟨_, rfl, ?_⟩, rfl, rfl, ?_⟩
    · decide +kernel
    · decide +kernel
  have hpub := congrArg KeyFiles.pub (hcall.unchanged hpair)
  exact absurd hpub (by decide +kernel)

end KustDesk
