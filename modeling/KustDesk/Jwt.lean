import KustDesk.External

/-!
# KustDesk — Jwt

`jwt.rs`.
-/

namespace KustDesk

/-- `verify_token`, with `secret` the value of `SECRET`. -/
def verifyToken (x : External) (secret : String) (now : Nat) (token : String) :
    Except String Claims :=
  match x.decodeToken token secret now with
  | some claims =>
    if claims.exp > usizeOf x.usizeBits now then .ok claims
    else .error "Token status invalid or expired"
  | none => .error "Invalid token"

/-- `n as usize`, of `w` bits, for a signed integer. -/
def asUsize (w : Nat) (n : Int) : Nat := (n % 2 ^ w).toNat

/-- The dates of `chrono`, by their timestamps, which are an `i64` each. -/
structure DateRange where
  min : Int
  max : Int
  min_ge : -2 ^ 63 ≤ min
  max_lt : max < 2 ^ 63

/-- The timestamp of a date and a number of seconds; `none` where the sum is no
date. -/
def DateRange.addSeconds (dates : DateRange) (t secs : Int) : Option Int :=
  if dates.min ≤ t + secs ∧ t + secs ≤ dates.max then some (t + secs) else none

/-- `jsonwebtoken::encode`, with what is documented of it and of the `decode`
in `x`: claims are read back under the secret they were written with, unless
they expired more than 60 seconds ago, and under no other. -/
structure TokenCodec (x : External) where
  encode : Claims → String → Except String String
  decode_encode : ∀ claims secret token now, claims.userId < 2 ^ 32 →
    claims.exp < 2 ^ x.usizeBits → encode claims secret = .ok token →
    x.decodeToken token secret now
      = if (claims.exp : Int) < (now : Int) - 60 then none else some claims
  decode_other : ∀ claims secret secret' token now, claims.userId < 2 ^ 32 →
    claims.exp < 2 ^ x.usizeBits → encode claims secret = .ok token → secret' ≠ secret →
    x.decodeToken token secret' now = none

/-- `generate_token` at `now`; `none` where the date arithmetic panics. -/
def generateToken {x : External} (codec : TokenCodec x) (dates : DateRange) (secret : String)
    (now : Int) (userId : UInt32) (exp : Int) : Option (Except String String) :=
  (dates.addSeconds now exp).map fun t =>
    codec.encode { userId := userId.toNat, exp := asUsize x.usizeBits t } secret

end KustDesk
