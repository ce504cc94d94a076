import KustDesk.Prelude
import KustDesk.Codec.Base64

/-!
# KustDesk — ServerKey

The licence key: what both servers make of the key argument, and `gen_sk`
of `common.rs`, which reads the key pair of the directory or creates one.
-/

namespace KustDesk

open Codec

/-- `sign::SECRETKEYBYTES`. -/
def secretKeyBytes : Nat := 64

/-- What `sign::gen_keypair` returns: a secret key ends with its public
key. -/
structure Keypair where
  pk : Bytes
  sk : Bytes
  sk_length : sk.length = secretKeyBytes
  public_half : sk.drop (secretKeyBytes / 2) = pk

/-- The contents of the files `id_ed25519` and `id_ed25519.pub`. -/
structure KeyFiles where
  sk : Option String := none
  pub : Option String := none

/-- What the system gives to a call of `gen_sk`: which operations fail, what
a failed write leaves in its file, and the key pairs. -/
structure SkEnv where
  openFails : Bool := false
  readFails : Bool := false
  keypairs : Nat → Keypair
  createPubFails : Bool := false
  pubLeft : Option String := none
  createSkFails : Bool := false
  skLeft : Option String := none

/-- `char::is_whitespace`. -/
def isWhitespace (c : Char) : Bool :=
  let n := c.toNat
  9 ≤ n && n ≤ 13 || n = 0x20 || n = 0x85 || n = 0xa0 || n = 0x1680
    || 0x2000 ≤ n && n ≤ 0x200a || n = 0x2028 || n = 0x2029 || n = 0x202f || n = 0x205f
    || n = 0x3000

/-- `str::trim`. -/
def trim (s : String) : String :=
  String.ofList ((s.toList.dropWhile isWhitespace).reverse.dropWhile isWhitespace).reverse

variable (b64 : Base64)

/-- The loop of `gen_sk`: key pair `i`, or with `n` rounds left the next one
whose public key has no awkward character. -/
def genLoop (keypairs : Nat → Keypair) : Nat → Nat → Keypair
  | 0, i => keypairs i
  | n + 1, i =>
      let pk := (b64.encode (keypairs i).pk).toList
      if '/' ∉ pk ∧ ':' ∉ pk then keypairs i else genLoop keypairs n (i + 1)

/-- `gen_sk` with the file open: the key pair in it, the empty key where it
cannot be read, or `none` where it is malformed and the process exits. -/
def readSk (e : SkEnv) (contents : String) : Option (String × Option Bytes) :=
  if e.readFails then some ("", none)
  else
    let sk := (b64.decode (trim contents)).getD []
    if sk.length = secretKeyBytes then
      some (b64.encode (sk.drop (secretKeyBytes / 2)), some sk)
    else none

/-- `gen_sk` where the file cannot be opened: a new key pair, written to the
files, or the empty key. -/
def createSk (e : SkEnv) (files : KeyFiles) : (String × Option Bytes) × KeyFiles :=
  let keypair := genLoop b64 e.keypairs 300 0
  let pk := b64.encode keypair.pk
  if e.createPubFails then (("", none), files)
  else
    -- whether the public key could be written is not looked at
    let files := { files with pub := some (e.pubLeft.getD pk) }
    if e.createSkFails then (("", none), files)
    else
      match e.skLeft with
      | some left => (("", none), { files with sk := some left })
      | none => ((pk, some keypair.sk), { files with sk := some (b64.encode keypair.sk) })

/-- `gen_sk`, with the files as they are after its wait. -/
def genSk (e : SkEnv) (files : KeyFiles) : Option (String × Option Bytes) × KeyFiles :=
  match files.sk, e.openFails with
  | some contents, false => (readSk b64 e contents, files)
  | _, _ =>
      let (keys, files) := createSk b64 e files
      (some keys, files)

/-- `RendezvousServer::get_server_sk`, of hbbs. -/
def RendezvousServer.getServerSk (e : SkEnv) (files : KeyFiles) (key : String) :
    Option (String × Option Bytes) × KeyFiles :=
  let (key, outSk) :=
    match b64.decode key with
    | some sk =>
        if sk.length = secretKeyBytes then
          (b64.encode (sk.drop (secretKeyBytes / 2)), some sk)
        else (key, none)
    | none => (key, none)
  if key = "" ∨ key = "-" ∨ key = "_" then
    match genSk b64 e files with
    | (some (pk, sk), files) => (some (if key = "" then key else pk, sk), files)
    | (none, files) => (none, files)
  else (some (key, outSk), files)

/-- `get_server_sk` of hbbr. -/
def getServerSk (e : SkEnv) (files : KeyFiles) (key : String) : Option String × KeyFiles :=
  let key :=
    match b64.decode key with
    | some sk =>
        if sk.length = secretKeyBytes then b64.encode (sk.drop (secretKeyBytes / 2)) else key
    | none => key
  if key = "-" ∨ key = "_" then
    match genSk b64 e files with
    | (some (pk, _), files) => (some pk, files)
    | (none, files) => (none, files)
  else (some key, files)

/-! ## What `gen_sk` comes to -/

/-- An operation on the files fails that the call cannot do without. -/
def SkEnv.Fails (e : SkEnv) (files : KeyFiles) : Prop :=
  if files.sk.isSome ∧ e.openFails = false then e.readFails = true
  else e.createPubFails = true ∨ e.createSkFails = true ∨ e.skLeft.isSome

instance (e : SkEnv) (files : KeyFiles) : Decidable (e.Fails files) := by
  unfold SkEnv.Fails
  exact inferInstance

/-- The file holds this secret key. -/
def KeyFiles.Holds (files : KeyFiles) (sk : Bytes) : Prop :=
  ∃ contents, files.sk = some contents ∧ b64.decode (trim contents) = some sk

theorem genSk_read {e : SkEnv} {files : KeyFiles} {contents : String}
    (hfile : files.sk = some contents) (hopen : e.openFails = false) :
    genSk b64 e files = (readSk b64 e contents, files) := by
  simp [genSk, hfile, hopen]

theorem genSk_create {e : SkEnv} {files : KeyFiles}
    (hclosed : ¬ (files.sk.isSome ∧ e.openFails = false)) :
    genSk b64 e files = (some (createSk b64 e files).1, (createSk b64 e files).2) := by
  cases hfile : files.sk with
  | none => simp [genSk, hfile]
  | some contents =>
      cases hopen : e.openFails with
      | true => simp [genSk, hfile, hopen]
      | false => simp [hfile, hopen] at hclosed

theorem genLoop_eq (keypairs : Nat → Keypair) (n i : Nat) :
    ∃ j, genLoop b64 keypairs n i = keypairs j := by
  induction n generalizing i with
  | zero => exact ⟨i, rfl⟩
  | succ n ih =>
      rw [genLoop]
      split
      · exact ⟨i, rfl⟩
      · exact ih (i + 1)

theorem trim_eq_self {s : String} (h : ∀ c ∈ s.toList, isWhitespace c = false) : trim s = s := by
  have hdrop (l : List Char) (hl : ∀ c ∈ l, isWhitespace c = false) :
      l.dropWhile isWhitespace = l := by
    cases l with
    | nil => rfl
    | cons c l => rw [List.dropWhile_cons_of_neg (by simp [hl c (List.mem_cons_self)])]
  rw [trim, hdrop _ h, hdrop _ (by simpa using h), List.reverse_reverse, String.ofList_toList]

/-- The text of a key is read back as it was written. -/
theorem decode_trim_encode (bytes : Bytes) : b64.decode (trim (b64.encode bytes)) = some bytes := by
  have hplain : ('=' :: letters).all (!isWhitespace ·) = true := by decide +kernel
  have hencode : ∀ c ∈ (b64.encode bytes).toList, isWhitespace c = false := fun c hc => by
    simpa using List.all_eq_true.1 hplain c (b64.mem_encode bytes c hc)
  rw [trim_eq_self hencode, b64.decode_encode]

/-- The key pair that a call gives, which the file then holds. -/
def Obtained (files : KeyFiles) (pk : String) (sk : Option Bytes) : Prop :=
  ∃ s, sk = some s ∧ s.length = secretKeyBytes ∧ pk = b64.encode (s.drop (secretKeyBytes / 2))
    ∧ files.Holds b64 s

theorem readSk_cases {e : SkEnv} {contents : String} {files : KeyFiles} {pk : String}
    {sk : Option Bytes} (hfile : files.sk = some contents)
    (h : readSk b64 e contents = some (pk, sk)) :
    e.readFails = true ∧ pk = "" ∧ sk = none
    ∨ e.readFails = false ∧ Obtained b64 files pk sk := by
  unfold readSk at h
  cases hread : e.readFails with
  | true =>
      rw [if_pos hread] at h
      cases h
      exact .inl ⟨rfl, rfl, rfl⟩
  | false =>
      rw [if_neg (by simp [hread])] at h
      dsimp only at h
      split at h
      · rename_i hlength
        cases h
        refine .inr ⟨rfl, _, rfl, hlength, rfl, contents, hfile, ?_⟩
        -- a text that is not base64 gives no bytes at all
        cases hdecode : b64.decode (trim contents) with
        | none =>
            rw [hdecode] at hlength
            cases hlength
        | some s => rfl
      · cases h

theorem createSk_cases (e : SkEnv) (files : KeyFiles) :
    (e.createPubFails = true ∨ e.createSkFails = true ∨ e.skLeft.isSome)
        ∧ (createSk b64 e files).1 = ("", none)
    ∨ ¬ (e.createPubFails = true ∨ e.createSkFails = true ∨ e.skLeft.isSome)
        ∧ Obtained b64 (createSk b64 e files).2 (createSk b64 e files).1.1
          (createSk b64 e files).1.2 := by
  unfold createSk
  dsimp only
  cases hpub : e.createPubFails with
  | true => exact .inl ⟨.inl rfl, rfl⟩
  | false =>
      cases hsk : e.createSkFails with
      | true => exact .inl ⟨.inr (.inl rfl), rfl⟩
      | false =>
          cases hleft : e.skLeft with
          | some left => exact .inl ⟨.inr (.inr rfl), rfl⟩
          | none =>
              obtain ⟨i, hkeypair⟩ := genLoop_eq b64 e.keypairs 300 0
              refine .inr ⟨by simp, (e.keypairs i).sk, ?_, (e.keypairs i).sk_length, ?_, ?_⟩
              · simp [hkeypair]
              · simp [hkeypair, (e.keypairs i).public_half]
              · refine ⟨b64.encode (e.keypairs i).sk, ?_, decode_trim_encode b64 _⟩
                simp [hkeypair]

/-- It fails and gives the empty key, or it gives a key pair. -/
theorem genSk_cases {e : SkEnv} {files : KeyFiles} {pk : String} {sk : Option Bytes}
    (h : (genSk b64 e files).1 = some (pk, sk)) :
    e.Fails files ∧ pk = "" ∧ sk = none
    ∨ ¬ e.Fails files ∧ Obtained b64 (genSk b64 e files).2 pk sk := by
  by_cases hopen : files.sk.isSome ∧ e.openFails = false
  · obtain ⟨contents, hfile⟩ := Option.isSome_iff_exists.mp hopen.1
    rw [genSk_read b64 hfile hopen.2] at h ⊢
    rw [SkEnv.Fails, if_pos hopen]
    simpa using readSk_cases b64 hfile h
  · rw [genSk_create b64 hopen] at h ⊢
    rw [SkEnv.Fails, if_neg hopen]
    have hkeys := Option.some.inj h
    rcases createSk_cases b64 e files with ⟨hfails, hempty⟩ | ⟨hworks, hobtained⟩
    · rw [hempty] at hkeys
      cases hkeys
      exact .inl ⟨hfails, rfl, rfl⟩
    · rw [hkeys] at hobtained
      exact .inr ⟨hworks, hobtained⟩

/-- A key that the file holds is found there. -/
theorem genSk_of_holds {e : SkEnv} {files : KeyFiles} {s : Bytes} (h : files.Holds b64 s)
    (hlength : s.length = secretKeyBytes) (hopen : e.openFails = false)
    (hread : e.readFails = false) :
    genSk b64 e files = (some (b64.encode (s.drop (secretKeyBytes / 2)), some s), files) := by
  obtain ⟨contents, hfile, hdecode⟩ := h
  simp [genSk, hfile, hopen, readSk, hread, hdecode, hlength]

/-! ## The two licence keys -/

/-- The words that ask for a key of the directory are no base64. -/
theorem decode_word {key : String} (h : key = "-" ∨ key = "_") : b64.decode key = none := by
  have hdash : ('-' : Char) ∉ '=' :: letters := by decide +kernel
  have hunderscore : ('_' : Char) ∉ '=' :: letters := by decide +kernel
  rw [Option.eq_none_iff_forall_ne_some]
  intro bytes hdecode
  have hmem := b64.mem_of_decode key bytes hdecode
  rcases h with rfl | rfl
  · exact hdash (hmem '-' (by decide))
  · exact hunderscore (hmem '_' (by decide))

variable {key : String}

/-- With such a word, both ask `gen_sk`. -/
theorem getServerSk_word (e e' : SkEnv) (files files' : KeyFiles) (h : key = "-" ∨ key = "_") :
    RendezvousServer.getServerSk b64 e files key = genSk b64 e files
    ∧ getServerSk b64 e' files' key
      = ((genSk b64 e' files').1.map Prod.fst, (genSk b64 e' files').2) := by
  have hne : key ≠ "" := by
    rintro rfl
    simp at h
  simp only [RendezvousServer.getServerSk, getServerSk, decode_word b64 h, hne, h, or_true, if_true,
    if_false]
  constructor
  · rcases genSk b64 e files with ⟨_ | ⟨pk, sk⟩, files⟩ <;> rfl
  · rcases genSk b64 e' files' with ⟨_ | ⟨pk, sk⟩, files⟩ <;> rfl

/-- Any other key stands for itself or, if it is a secret key, for its public
half. -/
theorem getServerSk_literal (e e' : SkEnv) (files files' : KeyFiles) (hkey : key ≠ "")
    (h : ¬ (key = "-" ∨ key = "_")) :
    ∃ k sk, RendezvousServer.getServerSk b64 e files key = (some (k, sk), files)
      ∧ getServerSk b64 e' files' key = (some k, files') ∧ k ≠ ""
      ∧ ∀ s, sk = some s → k = b64.encode (s.drop (secretKeyBytes / 2)) := by
  have hself (hdecode : ∀ sk, b64.decode key = some sk → sk.length ≠ secretKeyBytes) :
      RendezvousServer.getServerSk b64 e files key = (some (key, none), files)
        ∧ getServerSk b64 e' files' key = (some key, files') := by
    simp only [RendezvousServer.getServerSk, getServerSk]
    cases hcase : b64.decode key with
    | none => simp [hkey, h]
    | some sk => simp [hdecode sk hcase, hkey, h]
  cases hdecode : b64.decode key with
  | none =>
      obtain ⟨hs, hr⟩ := hself fun _ hsome => by simp [hdecode] at hsome
      exact ⟨key, none, hs, hr, hkey, nofun⟩
  | some sk =>
      by_cases hlength : sk.length = secretKeyBytes
      · have hlong : (b64.encode (sk.drop (secretKeyBytes / 2))).length = 44 := by
          rw [b64.length_encode, List.length_drop, hlength]
          rfl
        have hne (word : String) (hword : word.length ≠ 44) :
            b64.encode (sk.drop (secretKeyBytes / 2)) ≠ word := by
          rintro rfl
          exact hword hlong
        refine ⟨b64.encode (sk.drop (secretKeyBytes / 2)), some sk, ?_, ?_, hne "" (by decide), ?_⟩
        · simp [RendezvousServer.getServerSk, hdecode, hlength, hne "" (by decide),
            hne "-" (by decide), hne "_" (by decide)]
        · simp [getServerSk, hdecode, hlength, hne "-" (by decide), hne "_" (by decide)]
        · intro s hs
          rw [← Option.some.inj hs]
      · obtain ⟨hs, hr⟩ := hself fun s hsome => by
          rw [hdecode] at hsome
          rwa [← Option.some.inj hsome]
        exact ⟨key, none, hs, hr, hkey, nofun⟩

variable {e e' : SkEnv} {files files' : KeyFiles}

/-- **Licence keys.** For a key argument that is not empty, the keys of the two
servers are not empty, agree wherever `gen_sk` gives both the same public key,
and are those of the secret key that hbbs has, exactly unless the argument asks
for a key of the directory and one of the servers fails to obtain it. -/
theorem licence_keys_iff {ks kr : String} {sk : Option Bytes} (hkey : key ≠ "")
    (hs : (RendezvousServer.getServerSk b64 e files key).1 = some (ks, sk))
    (hr : (getServerSk b64 e' files' key).1 = some kr) :
    ((ks ≠ "" ∧ kr ≠ "")
      ∧ (∀ pk, (genSk b64 e files).1.map Prod.fst = some pk →
          (genSk b64 e' files').1.map Prod.fst = some pk → ks = kr)
      ∧ ∀ s, sk = some s → ks = b64.encode (s.drop (secretKeyBytes / 2)))
    ↔ ¬ ((key = "-" ∨ key = "_") ∧ (e.Fails files ∨ e'.Fails files')) := by
  by_cases hword : key = "-" ∨ key = "_"
  · obtain ⟨hbbs, hbbr⟩ := getServerSk_word b64 e e' files files' hword
    rw [hbbs] at hs
    rw [hbbr] at hr
    obtain ⟨⟨pk, sk'⟩, hgen, rfl⟩ := Option.map_eq_some_iff.mp hr
    have hempty {s : Bytes} (hlength : s.length = secretKeyBytes) :
        b64.encode (s.drop (secretKeyBytes / 2)) ≠ "" := by
      rw [Ne, b64.encode_eq_empty, List.drop_eq_nil_iff, hlength]
      decide
    rw [hs, hgen]
    rcases genSk_cases b64 hs with ⟨hfails, rfl, -⟩ | ⟨hworks, s, rfl, hlength, rfl, -⟩
    · simp [hword, hfails]
    · rcases genSk_cases b64 hgen with ⟨hfails, rfl, -⟩ | ⟨hworks', s', -, hlength', rfl, -⟩
      · simp [hword, hfails]
      · simpa [hworks, hworks', hempty hlength, hempty hlength'] using Eq.symm
  · obtain ⟨k, sk', hbbs, hbbr, hne, hpublic⟩ := getServerSk_literal b64 e e' files files' hkey
      hword
    rw [hbbs] at hs
    rw [hbbr] at hr
    cases hs
    cases hr
    simpa [hword, hne] using hpublic

/-- Where hbbs has obtained its key from the directory, hbbr obtains the same
one, if it can read the file. -/
theorem licence_keys_shared {ks : String} {s : Bytes} (hword : key = "-" ∨ key = "_")
    (hs : (RendezvousServer.getServerSk b64 e files key).1 = some (ks, some s))
    (hopen : e'.openFails = false) (hread : e'.readFails = false) :
    (getServerSk b64 e' (RendezvousServer.getServerSk b64 e files key).2 key).1 = some ks := by
  obtain ⟨hbbs, -⟩ := getServerSk_word b64 e e files files hword
  obtain ⟨-, hbbr⟩ := getServerSk_word b64 e e' files (genSk b64 e files).2 hword
  rw [hbbs] at hs ⊢
  rw [hbbr]
  rcases genSk_cases b64 hs with ⟨-, -, hnone⟩ | ⟨-, s', -, hlength, rfl, hholds⟩
  · cases hnone
  · rw [genSk_of_holds b64 hholds hlength hopen hread]
    rfl

/-- A key pair. -/
def sampleKeypair : Keypair where
  pk := [0xd7, 0x5a, 0x98, 0x01, 0x82, 0xb1, 0x0a, 0xb7, 0xd5, 0x4b, 0xfe, 0xd3, 0xc9, 0x64,
    0x07, 0x3a, 0x0e, 0xe1, 0x72, 0xf3, 0xda, 0xa6, 0x23, 0x25, 0xaf, 0x02, 0x1a, 0x68, 0xf7,
    0x07, 0x51, 0x1a]
  sk := [0x9d, 0x61, 0xb1, 0x9d, 0xef, 0xfd, 0x5a, 0x60, 0xba, 0x84, 0x4a, 0xf4, 0x92, 0xec,
    0x2c, 0xc4, 0x44, 0x49, 0xc5, 0x69, 0x7b, 0x32, 0x69, 0x19, 0x70, 0x3b, 0xac, 0x03, 0x1c,
    0xae, 0x7f, 0x60, 0xd7, 0x5a, 0x98, 0x01, 0x82, 0xb1, 0x0a, 0xb7, 0xd5, 0x4b, 0xfe, 0xd3,
    0xc9, 0x64, 0x07, 0x3a, 0x0e, 0xe1, 0x72, 0xf3, 0xda, 0xa6, 0x23, 0x25, 0xaf, 0x02, 0x1a,
    0x68, 0xf7, 0x07, 0x51, 0x1a]
  sk_length := rfl
  public_half := rfl

/-- A call in which nothing fails. -/
def works : SkEnv := { keypairs := fun _ => sampleKeypair }

/-- The files as another program has written them, with a line end. -/
def keyFiles : KeyFiles where
  sk := some ("nWGxne/9WmC6hEr0kuwsxERJxWl7MmkZcDusAxyuf2DXWpgB"
    ++ "grEKt9VL/tPJZAc6DuFy89qmIyWvAhpo9wdRGg==\n")

/-- Both servers are started with `-` in that directory. -/
theorem licence_keys_iff_file :
    (RendezvousServer.getServerSk .standard works keyFiles "-").1
      = some ("11qYAYKxCrfVS/7TyWQHOg7hcvPapiMlrwIaaPcHURo=", some sampleKeypair.sk)
    ∧ (getServerSk .standard works keyFiles "-").1
      = some "11qYAYKxCrfVS/7TyWQHOg7hcvPapiMlrwIaaPcHURo="
    ∧ "11qYAYKxCrfVS/7TyWQHOg7hcvPapiMlrwIaaPcHURo="
      = Base64.standard.encode (sampleKeypair.sk.drop (secretKeyBytes / 2)) := by
  have hgen : (genSk .standard works keyFiles).1
      = some ("11qYAYKxCrfVS/7TyWQHOg7hcvPapiMlrwIaaPcHURo=", some sampleKeypair.sk) := by
    decide +kernel
  obtain ⟨hword, hword'⟩ := getServerSk_word .standard works works keyFiles keyFiles (.inl rfl)
  have hs : (RendezvousServer.getServerSk .standard works keyFiles "-").1
      = some ("11qYAYKxCrfVS/7TyWQHOg7hcvPapiMlrwIaaPcHURo=", some sampleKeypair.sk) := by
    rw [hword, hgen]
  have hr : (getServerSk .standard works keyFiles "-").1
      = some "11qYAYKxCrfVS/7TyWQHOg7hcvPapiMlrwIaaPcHURo=" := by
    rw [hword', hgen]
    rfl
  have hkeys := (licence_keys_iff .standard (by decide) hs hr).mpr (by decide)
  exact ⟨hs, hr, hkeys.2.2 _ rfl⟩

/-- In an empty directory that cannot be written to, both licence keys are
empty. -/
theorem licence_keys_empty :
    ¬ ∀ (b64 : Base64) (key : String) (e e' : SkEnv) (files files' : KeyFiles) (ks kr : String)
      (sk : Option Bytes), key ≠ "" →
      (RendezvousServer.getServerSk b64 e files key).1 = some (ks, sk) →
      (getServerSk b64 e' files' key).1 = some kr → ks ≠ "" ∧ kr ≠ "" := by
  intro h
  have hkeys := h .standard "-" { works with createPubFails := true }
    { works with createPubFails := true } {} {} "" "" none (by decide) (by decide +kernel)
    (by decide +kernel)
  exact hkeys.1 rfl

end KustDesk
