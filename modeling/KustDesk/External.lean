import KustDesk.Proto

/-!
# KustDesk — External

The code the servers call that is not in the repository: `hbb_common` (a
submodule) and third-party crates. Each function is a parameter; what a
result needs to know about one is a hypothesis of that result.
-/

namespace KustDesk

/-- `PeerInfo` of `peer.rs`. -/
structure PeerInfo where
  ip : String := ""
  deriving DecidableEq

/-- `Claims` of `jwt.rs`; times are whole seconds. -/
structure Claims where
  userId : Nat
  exp : Nat
  deriving DecidableEq

/-- `hbb_common::tcp::Encrypt`: a symmetric key, and what has gone through
it in each direction since `Encrypt::new`. -/
structure Encrypt where
  key : Bytes
  sent : List Bytes := []
  received : List Bytes := []
  deriving DecidableEq

structure External where
  /-- `RendezvousMessage::parse_from_bytes`. -/
  parseFromBytes : Bytes → Option RendezvousMessage
  /-- `RendezvousMessage::write_to_bytes`. -/
  writeToBytes : RendezvousMessage → Option Bytes
  /-- `AddrMangle::encode`. -/
  mangleEncode : SocketAddr → Bytes
  /-- `AddrMangle::decode`. -/
  mangleDecode : Bytes → SocketAddr
  /-- `hbb_common::try_into_v4`. -/
  tryIntoV4 : SocketAddr → SocketAddr
  /-- The ciphertext `Encrypt::enc` returns. -/
  enc : Encrypt → Bytes → Bytes
  /-- The plaintext `Encrypt::dec` leaves, `none` on an error. -/
  dec : Encrypt → Bytes → Option Bytes
  /-- `box_::open(sealed, nonce, pk, sk)`. -/
  boxOpen : Bytes → Bytes → Bytes → Bytes → Option Bytes
  /-- `secretbox::Key::from_slice`. -/
  secretboxKey : Bytes → Option Bytes
  /-- `sign::sign(m, sk)`. -/
  sign : Bytes → Bytes → Bytes
  /-- `IdPk { id, pk }.write_to_bytes()`. -/
  idPk : String → Bytes → Option Bytes
  /-- `serde_json::to_string` of a `PeerInfo`. -/
  infoToString : PeerInfo → Option String
  /-- `serde_json::from_str::<PeerInfo>`. -/
  infoFromStr : String → Option PeerInfo
  /-- `jsonwebtoken::decode::<Claims>(token, secret, HS256)` at a time. -/
  decodeToken : String → String → Nat → Option Claims
  /-- Whether `host.to_socket_addrs()` yields an address. -/
  resolves : String → Bool
  /-- The width of `usize`. -/
  usizeBits : Nat := 64

/-! ## A small instance

To evaluate the model: frames are looked up in a table of messages, an
address is its bytes, a cipher flips every bit, and a sealed box is an
authenticator in front of the plaintext. -/

/-- The IPv4 form of an IPv6 address that has one, but for `::1`. -/
def SocketAddr.unmapped (a : SocketAddr) : SocketAddr :=
  match a.ip with
  | .v4 _ => a
  | .v6 ip =>
      if a.ip.isLoopback then a
      else match toIpv4 ip with
        | some ip => { a with ip := .v4 ip }
        | none => a

/-- The `n` low bytes of a number, least significant first. -/
def toBytes : Nat → Nat → Bytes
  | 0, _ => []
  | n + 1, m => UInt8.ofNat m :: toBytes n (m / 256)

def ofBytes : Bytes → Nat
  | [] => 0
  | b :: rest => b.toNat + 256 * ofBytes rest

def SocketAddr.toBytes (a : SocketAddr) : Bytes :=
  KustDesk.toBytes 2 a.port.toNat ++
    match a.ip with
    | .v4 ip => KustDesk.toBytes 4 ip.toNat
    | .v6 ip => KustDesk.toBytes 16 ip.toNat

def SocketAddr.ofBytes (b : Bytes) : SocketAddr where
  ip :=
    if b.length = 18 then .v6 (BitVec.ofNat 128 (KustDesk.ofBytes (b.drop 2)))
    else .v4 (BitVec.ofNat 32 (KustDesk.ofBytes (b.drop 2)))
  port := UInt16.ofNat (KustDesk.ofBytes (b.take 2))

def External.sample (messages : List (Bytes × Union)) : External where
  parseFromBytes b := (messages.lookup b).map fun m => ⟨some m⟩
  writeToBytes _ := some []
  mangleEncode a := a.unmapped.toBytes
  mangleDecode b := SocketAddr.ofBytes b
  tryIntoV4 := SocketAddr.unmapped
  enc _ b := b.map (~~~ ·)
  dec _ b := some (b.map (~~~ ·))
  boxOpen sealed _ _ _ := if sealed.length < 16 then none else some (sealed.drop 16)
  secretboxKey k := if k.length = 32 then some k else none
  sign m sk := sk ++ m
  idPk _ pk := some pk
  infoToString info := some info.ip
  infoFromStr s := some { ip := s }
  decodeToken _ _ _ := none
  resolves _ := true

theorem ofBytes_toBytes (n m : Nat) : ofBytes (toBytes n m) = m % 256 ^ n := by
  induction n generalizing m with
  | zero => simp [toBytes, ofBytes, Nat.mod_one]
  | succ n ih =>
      have hbyte : (UInt8.ofNat m).toNat = m % 256 := by simp
      rw [toBytes, ofBytes, ih, hbyte, Nat.pow_succ', Nat.mod_mul]

theorem length_toBytes (n m : Nat) : (toBytes n m).length = n := by
  induction n generalizing m with
  | zero => rfl
  | succ n ih => rw [toBytes, List.length_cons, ih]

theorem ofNat_mod_toNat {w : Nat} (x : BitVec w) : BitVec.ofNat w (x.toNat % 2 ^ w) = x := by
  apply BitVec.eq_of_toNat_eq
  simp

theorem SocketAddr.ofBytes_toBytes (a : SocketAddr) : SocketAddr.ofBytes a.toBytes = a := by
  obtain ⟨ip, port⟩ := a
  have hport : UInt16.ofNat (port.toNat % 256 ^ 2) = port := by
    have hlt : port.toNat < 256 ^ 2 := port.toNat_lt
    rw [Nat.mod_eq_of_lt hlt]
    exact UInt16.ofNat_toNat
  have htake (rest : Bytes) : (KustDesk.toBytes 2 port.toNat ++ rest).take 2
      = KustDesk.toBytes 2 port.toNat := List.take_left' (length_toBytes 2 _)
  have hdrop (rest : Bytes) : (KustDesk.toBytes 2 port.toNat ++ rest).drop 2 = rest :=
    List.drop_left' (length_toBytes 2 _)
  cases ip with
  | v4 ip =>
      have hlen : (KustDesk.toBytes 2 port.toNat ++ KustDesk.toBytes 4 ip.toNat).length ≠ 18 := by
        simp [length_toBytes]
      simp only [SocketAddr.toBytes, SocketAddr.ofBytes, hlen, htake, hdrop,
        KustDesk.ofBytes_toBytes, hport, if_false]
      rw [show (256 : Nat) ^ 4 = 2 ^ 32 from rfl, ofNat_mod_toNat]
  | v6 ip =>
      have hlen : (KustDesk.toBytes 2 port.toNat ++ KustDesk.toBytes 16 ip.toNat).length = 18 := by
        simp [length_toBytes]
      simp only [SocketAddr.toBytes, SocketAddr.ofBytes, hlen, htake, hdrop,
        KustDesk.ofBytes_toBytes, hport, if_true]
      rw [show (256 : Nat) ^ 16 = 2 ^ 128 from rfl, ofNat_mod_toNat]

theorem SocketAddr.unmapped_unmapped (a : SocketAddr) : a.unmapped.unmapped = a.unmapped := by
  obtain ⟨ip, port⟩ := a
  cases ip with
  | v4 ip => rfl
  | v6 ip =>
      by_cases hloop : (IpAddr.v6 ip).isLoopback = true
      · simp [SocketAddr.unmapped, hloop]
      · cases hip : toIpv4 ip <;> simp [SocketAddr.unmapped, hloop, hip]

/-- What a result may assume of `AddrMangle`, the sample instance has. -/
theorem External.sample_mangleDecode (messages : List (Bytes × Union)) (a : SocketAddr) :
    (External.sample messages).mangleDecode ((External.sample messages).mangleEncode a)
      = (External.sample messages).tryIntoV4 a :=
  SocketAddr.ofBytes_toBytes _

theorem sample_infoFromStr (info : PeerInfo) :
    ∃ text, (External.sample []).infoToString info = some text
      ∧ (External.sample []).infoFromStr text = some info := ⟨info.ip, rfl, rfl⟩

/-- `Uuid::nil().as_bytes()`: where a step makes no `Uuid`. -/
def nilUuid : {b : Bytes // b.length = 16} := ⟨List.replicate 16 0, by decide⟩

/-- What the outside feeds into one step of a server task. -/
structure Env where
  /-- `Instant::now()`. -/
  now : Instant
  /-- The earliest `Instant` that the platform can represent. -/
  earliest : Instant := 0
  /-- `chrono::Utc::now().timestamp()`. -/
  utc : Nat := 0
  /-- Whether the I/O operation of the step fails. -/
  fails : Bool := false
  /-- `Uuid::new_v4().as_bytes()`. -/
  guid : {b : Bytes // b.length = 16} := nilUuid

end KustDesk
