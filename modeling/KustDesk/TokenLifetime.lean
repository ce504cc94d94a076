import KustDesk.Jwt
import KustDesk.Codec.Numeral

/-!
# KustDesk — TokenLifetime

How long a token from `generate_token` passes `verify_token`. Both the expiry
and the time of the check are cast to a `usize`; an expiry before 1970 becomes
one that, with 64 bits, never comes, and with 32 bits only the low half of either
number counts.
-/

namespace KustDesk

open Codec

/-- The token passes with its secret until the expiry, from its issue at `t0`
on, and yields its user; with another secret it does not pass. -/
structure TokenLives (x : External) (secret token : String) (userId : UInt32) (t0 : Nat)
    (expiry : Int) : Prop where
  lives : ∀ t : Nat, t0 ≤ t → t < 2 ^ 63 →
    ((∃ claims, verifyToken x secret t token = .ok claims) ↔ (t : Int) < expiry)
  user : ∀ t claims, verifyToken x secret t token = .ok claims → claims.userId = userId.toNat
  other : ∀ secret' t claims, secret' ≠ secret → verifyToken x secret' t token ≠ .ok claims

section
variable {x : External} {codec : TokenCodec x} {dates : DateRange} {secret token : String}
  {userId : UInt32} {exp : Int} {t0 : Nat}

theorem asUsize_lt (w : Nat) (n : Int) : asUsize w n < 2 ^ w := by
  unfold asUsize
  have hcast : ((2 ^ w : Nat) : Int) = 2 ^ w := by simp
  have hpos : (0 : Int) < 2 ^ w := Int.pow_pos (by omega)
  have hlt := Int.emod_lt_of_pos n hpos
  omega

theorem generateToken_ok (h : generateToken codec dates secret t0 userId exp = some (.ok token)) :
    -2 ^ 63 ≤ t0 + exp ∧ t0 + exp < 2 ^ 63
      ∧ codec.encode { userId := userId.toNat, exp := asUsize x.usizeBits (t0 + exp) } secret
        = .ok token := by
  have hmin := dates.min_ge
  have hmax := dates.max_lt
  unfold generateToken DateRange.addSeconds at h
  by_cases hdate : dates.min ≤ t0 + exp ∧ t0 + exp ≤ dates.max
  · rw [if_pos hdate] at h
    exact ⟨by omega, by omega, Option.some.inj h⟩
  · rw [if_neg hdate] at h
    cases h

/-- Neither the check of `verify_token` nor that of `jsonwebtoken`, with its
leeway of a minute, finds at `t` that a token with the expiry `e` has expired. -/
def Unexpired (w e t : Nat) : Prop := usizeOf w t < e ∧ t ≤ e + 60

theorem verifyToken_encode {claims claims' : Claims} (huser : claims.userId < 2 ^ 32)
    (hexp : claims.exp < 2 ^ x.usizeBits) (h : codec.encode claims secret = .ok token) (t : Nat) :
    verifyToken x secret t token = .ok claims'
      ↔ Unexpired x.usizeBits claims.exp t ∧ claims' = claims := by
  unfold verifyToken Unexpired
  rw [codec.decode_encode claims secret token t huser hexp h]
  by_cases hlate : (claims.exp : Int) < (t : Int) - 60
  · rw [if_pos hlate]
    constructor
    · intro hok
      cases hok
    · intro hok
      omega
  · rw [if_neg hlate]
    dsimp only
    by_cases hahead : claims.exp > usizeOf x.usizeBits t
    · rw [if_pos hahead, Except.ok.injEq]
      exact ⟨fun heq => ⟨⟨hahead, by omega⟩, heq.symm⟩, fun hok => hok.2.symm⟩
    · rw [if_neg hahead]
      constructor
      · intro hok
        cases hok
      · intro hok
        omega

/-- A token lives as long as its expiry, cast to a `usize`, is ahead. -/
theorem tokenLives_iff (h : generateToken codec dates secret t0 userId exp = some (.ok token)) :
    TokenLives x secret token userId t0 (t0 + exp) ↔ ∀ t : Nat, t0 ≤ t → t < 2 ^ 63 →
      (Unexpired x.usizeBits (asUsize x.usizeBits (t0 + exp)) t ↔ (t : Int) < t0 + exp) := by
  obtain ⟨-, -, hencode⟩ := generateToken_ok h
  have hverify (t : Nat) (claims : Claims) : verifyToken x secret t token = .ok claims ↔ _ :=
    verifyToken_encode userId.toNat_lt (asUsize_lt _ _) hencode t
  have hpasses (t : Nat) : (∃ claims, verifyToken x secret t token = .ok claims)
      ↔ Unexpired x.usizeBits (asUsize x.usizeBits (t0 + exp)) t :=
    ⟨fun ⟨claims, hok⟩ => ((hverify t claims).mp hok).1,
      fun hahead => ⟨_, (hverify t _).mpr ⟨hahead, rfl⟩⟩⟩
  constructor
  · intro hlives t hle hlt
    rw [← hpasses]
    exact hlives.lives t hle hlt
  · intro hahead
    refine ⟨fun t hle hlt => (hpasses t).trans (hahead t hle hlt), ?_, ?_⟩
    · intro t claims hok
      rw [((hverify t claims).mp hok).2]
    · intro secret' t claims hne hok
      unfold verifyToken at hok
      rw [codec.decode_other _ secret secret' token t userId.toNat_lt (asUsize_lt _ _) hencode hne]
        at hok
      cases hok

/-! ## The two widths -/

theorem unexpired64_iff (ht0 : t0 < 2 ^ 63) (hge : -2 ^ 63 ≤ t0 + exp) (hlt : t0 + exp < 2 ^ 63) :
    (∀ t : Nat, t0 ≤ t → t < 2 ^ 63 →
      (Unexpired 64 (asUsize 64 (t0 + exp)) t ↔ (t : Int) < t0 + exp)) ↔ 0 ≤ t0 + exp := by
  unfold Unexpired usizeOf asUsize
  constructor
  · intro hlives
    -- it passes when it is issued, although it has expired by then
    have hissued := hlives t0 (Nat.le_refl _) ht0
    omega
  · intro hnonneg t _ _
    omega

/-- With 32 bits, a lifetime ends a minute before 2^32 seconds since 1970. Of an
expiry that is no later than the issue, the low half has passed as well, and not
just before the time of the check starts over. -/
def ExpiryFits (t0 : Nat) (exp : Int) : Prop :=
  if 0 < exp then t0 + exp + 60 < 2 ^ 32
  else asUsize 32 (t0 + exp) ≤ t0
    ∧ (asUsize 32 (t0 + exp) + 60 < 2 ^ 32 ∨ asUsize 32 (t0 + exp) + 60 < t0)

theorem unexpired32_iff (ht0 : t0 < 2 ^ 63) (hlt : t0 + exp < 2 ^ 63) :
    (∀ t : Nat, t0 ≤ t → t < 2 ^ 63 →
      (Unexpired 32 (asUsize 32 (t0 + exp)) t ↔ (t : Int) < t0 + exp)) ↔ ExpiryFits t0 exp := by
  unfold Unexpired usizeOf ExpiryFits
  have hsmall := asUsize_lt 32 (t0 + exp)
  have hcast : (asUsize 32 (t0 + exp) : Int) = (t0 + exp) % 2 ^ 32 := by
    unfold asUsize
    omega
  generalize asUsize 32 (t0 + exp) = e at hsmall hcast ⊢
  by_cases hexp : 0 < exp
  · rw [if_pos hexp]
    constructor
    · intro hlives
      -- the last second of the lifetime, and the one in which the clock's low half is 0
      have hlast := hlives (t0 + exp - 1).toNat (by omega) (by omega)
      have hover := hlives (2 ^ 32)
      omega
    · intro hfits t _ _
      omega
  · rw [if_neg hexp]
    constructor
    · intro hlives
      have hissued := hlives t0 (Nat.le_refl _) ht0
      have hover := hlives (2 ^ 32)
      omega
    · intro hfits t _ _
      omega

/-- **Token lifetimes.** With 64 bits, a token lives exactly its lifetime just
if the date of its expiry is not before 1970; with 32 bits, just if the expiry
fits. -/
theorem token_lives_iff (ht0 : t0 < 2 ^ 63)
    (h : generateToken codec dates secret t0 userId exp = some (.ok token)) :
    (x.usizeBits = 64 → (TokenLives x secret token userId t0 (t0 + exp) ↔ 0 ≤ t0 + exp))
    ∧ (x.usizeBits = 32 →
      (TokenLives x secret token userId t0 (t0 + exp) ↔ ExpiryFits t0 exp)) := by
  obtain ⟨hge, hlt, -⟩ := generateToken_ok h
  rw [tokenLives_iff h]
  refine ⟨fun hbits => ?_, fun hbits => ?_⟩
  · rw [hbits]
    exact unexpired64_iff ht0 hge hlt
  · rw [hbits]
    exact unexpired32_iff ht0 hlt

end

/-! ## Tokens in plain text -/

/-- The claims in digits, and the secret behind them. -/
def plainToken (claims : Claims) (secret : String) : String :=
  String.ofList (Nat.toDigits 10 claims.userId
    ++ '.' :: (Nat.toDigits 10 claims.exp ++ '.' :: secret.toList))

def readPlainToken (token secret : String) : Option Claims :=
  match readDigits 10 token.toList with
  | (userId, '.' :: cs) =>
    match readDigits 10 cs with
    | (exp, '.' :: cs) =>
      if cs = secret.toList then some { userId := ofDigits 10 userId, exp := ofDigits 10 exp }
      else none
    | _ => none
  | _ => none

theorem readPlainToken_plainToken (claims : Claims) (secret secret' : String) :
    readPlainToken (plainToken claims secret) secret'
      = if secret.toList = secret'.toList then some claims else none := by
  have hdot (cs : List Char) : NoDigit 10 ('.' :: cs) := by
    have hnone : toDigit 10 '.' = none := by decide
    simpa [NoDigit] using hnone
  obtain ⟨ds, hds, huser, -⟩ := readDigits_toDigits (by omega : 1 < 10) (by omega) claims.userId
    (hdot (Nat.toDigits 10 claims.exp ++ '.' :: secret.toList))
  obtain ⟨ds', hds', hexp, -⟩ := readDigits_toDigits (by omega : 1 < 10) (by omega) claims.exp
    (hdot secret.toList)
  unfold readPlainToken plainToken
  rw [String.toList_ofList, hds]
  simp only [hds', huser, hexp]

/-- Tokens that are read by anyone, and expire as `jsonwebtoken` has it. -/
def plainTokens (bits : Nat) : External :=
  { External.sample [] with
    usizeBits := bits
    decodeToken := fun token secret now =>
      (readPlainToken token secret).filter fun claims => ¬ (claims.exp : Int) < (now : Int) - 60 }

def plainCodec (bits : Nat) : TokenCodec (plainTokens bits) where
  encode claims secret := .ok (plainToken claims secret)
  decode_encode claims secret token now _ _ h := by
    cases h
    show (readPlainToken _ secret).filter _ = _
    rw [readPlainToken_plainToken, if_pos rfl]
    by_cases hlate : (claims.exp : Int) < (now : Int) - 60
    · rw [if_pos hlate, Option.filter_some, if_neg (by rw [decide_not, decide_eq_true hlate]; simp)]
    · rw [if_neg hlate, Option.filter_some, if_pos (decide_eq_true hlate)]
  decode_other claims secret secret' token now _ _ h hne := by
    cases h
    show (readPlainToken _ secret').filter _ = _
    rw [readPlainToken_plainToken, if_neg fun heq => hne (String.toList_injective heq).symm]
    rfl

/-- The years from 1 to 9999. -/
def fourDigitYears : DateRange where
  min := -62135596800
  max := 253402300799
  min_ge := by omega
  max_lt := by omega

/-- A token for an hour, with either width. -/
theorem token_lives_iff_hour :
    TokenLives (plainTokens 64) "key"
        (plainToken { userId := 7, exp := 1700003600 } "key") 7 1700000000 1700003600
      ∧ TokenLives (plainTokens 32) "key"
        (plainToken { userId := 7, exp := 1700003600 } "key") 7 1700000000 1700003600 := by
  have hissue : 1700000000 < 2 ^ 63 := by omega
  have htoken (bits : Nat) (hexp : asUsize bits 1700003600 = 1700003600) :
      generateToken (plainCodec bits) fourDigitYears "key" (1700000000 : Nat) 7 3600
        = some (.ok (plainToken { userId := 7, exp := 1700003600 } "key")) := by
    rw [← hexp]
    rfl
  exact ⟨((token_lives_iff hissue (htoken 64 rfl)).1 rfl).mpr (by omega),
    ((token_lives_iff hissue (htoken 32 rfl)).2 rfl).mpr
      (by rw [ExpiryFits, if_pos (by omega)]; omega)⟩

/-- A token whose lifetime takes it to before 1970 passes from the start. -/
theorem expired_token_passes :
    generateToken (plainCodec 64) fourDigitYears "key" 1700000000 7 (-2000000000)
        = some (.ok (plainToken { userId := 7, exp := 18446744073409551616 } "key"))
      ∧ verifyToken (plainTokens 64) "key" 1700000000
          (plainToken { userId := 7, exp := 18446744073409551616 } "key")
        = .ok { userId := 7, exp := 18446744073409551616 }
      ∧ ¬ TokenLives (plainTokens 64) "key"
          (plainToken { userId := 7, exp := 18446744073409551616 } "key") 7 1700000000
          (1700000000 - 2000000000) := by
  have hpasses : verifyToken (plainTokens 64) "key" 1700000000
      (plainToken { userId := 7, exp := 18446744073409551616 } "key")
      = .ok { userId := 7, exp := 18446744073409551616 } :=
    (verifyToken_encode (by decide) (by decide) (show (plainCodec 64).encode
      { userId := 7, exp := 18446744073409551616 } "key" = .ok _ from rfl) 1700000000).mpr
      ⟨⟨by decide, by decide⟩, rfl⟩
  refine ⟨rfl, hpasses, fun hlives => ?_⟩
  have hahead := (hlives.lives 1700000000 (Nat.le_refl _) (by omega)).mp ⟨_, hpasses⟩
  omega

end KustDesk
