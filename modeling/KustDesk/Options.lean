import KustDesk.RelayCmd

/-!
# KustDesk — Options

How hbbs and hbbr find their options: the variables of the process, the files
with more of them, and the command line. hbbs writes every name in capitals
and with hyphens before it sets a variable, hbbr leaves the names as they are.
-/

namespace KustDesk

open Codec

/-! ## Variables -/

/-- What `std::env::var` yields for a name. -/
abbrev Vars := String → Option String

/-- `std::env::set_var`, `none` where it panics. -/
def setVar (vars : Vars) (k v : String) : Option Vars :=
  if k = "" ∨ '=' ∈ k.toList ∨ Char.ofNat 0 ∈ k.toList ∨ Char.ofNat 0 ∈ v.toList then none
  else some (Function.update vars k (some v))

/-- One variable after the other. -/
def setVars (rename : String → String) (vars : Vars) : List (String × String) → Option Vars
  | [] => some vars
  | (k, v) :: rest => (setVar vars (rename k) v).bind fun vars => setVars rename vars rest

/-- The last value that is assigned to a name. -/
def assigned (rename : String → String) (pairs : List (String × String)) (n : String) :
    Option String :=
  (pairs.filterMap fun kv => if rename kv.1 = n then some kv.2 else none).getLast?

/-- A variable has the last value that it was given, or the one it had. -/
theorem setVars_eq {rename : String → String} {vars vars' : Vars} {pairs : List (String × String)}
    (h : setVars rename vars pairs = some vars') (n : String) :
    vars' n = (assigned rename pairs n).or (vars n) := by
  induction pairs generalizing vars with
  | nil =>
      cases h
      rfl
  | cons kv rest ih =>
      obtain ⟨k, v⟩ := kv
      rw [setVars, Option.bind_eq_some_iff] at h
      obtain ⟨vars₁, hset, hrest⟩ := h
      rw [ih hrest]
      unfold setVar at hset
      split at hset
      · cases hset
      · cases hset
        unfold assigned
        by_cases hn : rename k = n
        · subst hn
          rw [List.filterMap_cons_some (b := v) (by simp), List.getLast?_cons]
          cases (rest.filterMap fun kv => if rename kv.1 = rename k then some kv.2 else none).getLast?
            with
          | none => simp
          | some v' => simp
        · rw [List.filterMap_cons_none (by simp [hn]), Function.update_of_ne (Ne.symm hn)]

theorem assigned_eq_none {rename : String → String} {pairs : List (String × String)} {n : String}
    (h : ∀ kv ∈ pairs, rename kv.1 ≠ n) : assigned rename pairs n = none := by
  have hnone : (pairs.filterMap fun kv => if rename kv.1 = n then some kv.2 else none) = [] :=
    List.filterMap_eq_nil_iff.mpr fun kv hkv => by simp [h kv hkv]
  rw [assigned, hnone]
  rfl

/-! ## What a program finds when it is started -/

/-- What is outside: Unicode, and two constants of the library. -/
structure Platform where
  /-- `char::to_uppercase` -/
  upper : Char → List Char
  rendezvousPort : Nat
  relayPort : Nat

/-- The letters and signs of ASCII are as they are there. -/
def Platform.Ascii (p : Platform) : Prop := ∀ c : Char, c.toNat < 128 → p.upper c = [c.toUpper]

/-- The arguments as `clap` has parsed them: each of the options at most once,
with its first value. -/
structure ArgMatches (options : List String) where
  args : List (String × Option String)
  nodup : (args.map Prod.fst).Nodup
  known : ∀ arg ∈ args, arg.1 ∈ options

/-- `matches.value_of` -/
def ArgMatches.valueOf {options : List String} (m : ArgMatches options) (name : String) :
    Option String := (m.args.lookup name).join

/-- The variables of the process, the files it may read, and its arguments. -/
structure Launch (options : List String) where
  vars : Vars
  /-- The general section of an INI file, empty if there is no such file. -/
  ini : String → List (String × String)
  argMatches : ArgMatches options

/-! ## hbbs -/

def hbbsOptions : List String :=
  ["config", "port", "serial", "rendezvous-servers", "software-url", "relay-servers", "rmem",
    "mask", "key", "must-login"]

section hbbs
variable (p : Platform)

/-- `arg_name` -/
def argName (name : String) : String :=
  String.ofList ((name.toList.flatMap p.upper).map fun c => if c = '_' then '-' else c)

/-- The arguments that have a value. -/
def ArgMatches.given {options : List String} (m : ArgMatches options) : List (String × String) :=
  m.args.filterMap fun arg => arg.2.map fun v => (arg.1, v)

/-- The part of `init_args` for the file that the command line names. -/
def initConfig (l : Launch hbbsOptions) (vars : Vars) : Option Vars :=
  match l.argMatches.valueOf "config" with
  | some config => setVars (argName p) vars (l.ini config)
  | none => some vars

/-- `init_args` -/
def initArgs (l : Launch hbbsOptions) : Option Vars := do
  let vars ← setVars (argName p) l.vars (l.ini ".env")
  let vars ← initConfig p l vars
  setVars (argName p) vars l.argMatches.given

/-- `get_arg_or` -/
def getArgOr (vars : Vars) (name default : String) : String := (vars (argName p name)).getD default

/-- `get_arg` -/
def getArg (vars : Vars) (name : String) : String := getArgOr p vars name ""

/-- What `main` of hbbs starts the server with. -/
structure HbbsStart where
  vars : Vars
  port : Int
  serial : Int
  key : String

/-- `main` of hbbs, up to the start of the server. It ends where a variable
cannot be set, where the port is no number, and with `Invalid port`. -/
def hbbsMain (l : Launch hbbsOptions) : Option HbbsStart := do
  let vars ← initArgs p l
  let port ← parseI32 (getArgOr p vars "port" (toString p.rendezvousPort))
  if port < 3 then none
  else
    some {
      vars, port
      serial := (parseI32 (getArg p vars "serial")).getD 0
      key := getArgOr p vars "key" "-" }

/-- The ports that hbbs listens on: the main one, the one for NAT tests and the
one for WebSockets, each `as u16`. -/
def hbbsPorts (port : Int) : List Nat :=
  [port, port - 1, port + 2].map fun q => (q % 2 ^ 16).toNat

/-! ## hbbr -/

def hbbrOptions : List String := ["port", "key"]

/-- The port of hbbr where no argument gives one: the one after that of hbbs. -/
def hbbrPort (vars : Vars) : Nat :=
  match vars "PORT" with
  | some v =>
    let v := (parseI32 v).getD 0
    -- the largest `i32` would overflow, and is no port either way
    if v > 0 then v.toNat + 1 else p.relayPort
  | none => p.relayPort

/-- `main` of hbbr, and `start` up to the listeners: the two ports and the key.
The second port is wrapped in a release build. -/
def hbbrMain (l : Launch hbbrOptions) : Option (List Nat × String) := do
  let vars ← setVars id l.vars (l.ini ".env")
  let port ← parseUnsigned 16 ((l.argMatches.valueOf "port").getD (toString (hbbrPort p vars)))
  return ([port, (port + 2) % 2 ^ 16], (l.argMatches.valueOf "key").getD ((vars "KEY").getD ""))

end hbbs

/-! ## Names -/

section names
variable {p : Platform}

def asciiOnly (name : String) : Bool := name.toList.all fun c => c.toNat < 128

/-- The options of hbbs are written in capitals. -/
theorem argName_of_ascii (hp : p.Ascii) {name : String} (h : asciiOnly name = true) :
    argName p name
      = String.ofList (name.toList.map fun c => if c.toUpper = '_' then '-' else c.toUpper) := by
  have hupper (cs : List Char) (hcs : ∀ c ∈ cs, c.toNat < 128) :
      cs.flatMap p.upper = cs.map Char.toUpper := by
    induction cs with
    | nil => rfl
    | cons c cs ih =>
        obtain ⟨hc, hcs⟩ := List.forall_mem_cons.mp hcs
        rw [List.flatMap_cons, hp c hc, ih hcs]
        rfl
  have hname : ∀ c ∈ name.toList, c.toNat < 128 := fun c hc =>
    of_decide_eq_true (List.all_eq_true.mp h c hc)
  rw [argName, hupper _ hname, List.map_map]
  rfl

/-- No option has an underscore in the name of its variable. -/
theorem underscore_not_mem_argName (name : String) : '_' ∉ (argName p name).toList := by
  rw [argName, String.toList_ofList]
  intro h
  obtain ⟨c, -, hc⟩ := List.mem_map.mp h
  split at hc
  · exact absurd hc (by decide)
  · rename_i hne
    exact hne hc

theorem hbbsOptions_ascii : ∀ name ∈ hbbsOptions, asciiOnly name = true := by
  decide

/-- Each option has a variable of its own. -/
theorem argName_inj (hp : p.Ascii) {a b : String} (ha : a ∈ hbbsOptions) (hb : b ∈ hbbsOptions)
    (h : argName p a = argName p b) : a = b := by
  rw [argName_of_ascii hp (hbbsOptions_ascii a ha), argName_of_ascii hp (hbbsOptions_ascii b hb)]
    at h
  have hinj : ∀ a ∈ hbbsOptions, ∀ b ∈ hbbsOptions,
      String.ofList (a.toList.map fun c => if c.toUpper = '_' then '-' else c.toUpper)
        = String.ofList (b.toList.map fun c => if c.toUpper = '_' then '-' else c.toUpper) →
      a = b := by
    decide
  exact hinj a ha b hb h

end names

/-! ## What an option comes to -/

/-- The file that the command line names. -/
def Launch.config (l : Launch hbbsOptions) : List (String × String) :=
  ((l.argMatches.valueOf "config").map l.ini).getD []

/-- The value of an option: the command line goes before the file that it
names, that file before `.env`, and `.env` before the variables. -/
def Launch.option (p : Platform) (l : Launch hbbsOptions) (name : String) : Option String :=
  (l.argMatches.valueOf name).or
    ((assigned (argName p) l.config (argName p name)).or
      ((assigned (argName p) (l.ini ".env") (argName p name)).or (l.vars (argName p name))))

section option
variable {p : Platform} {l : Launch hbbsOptions} {vars : Vars}

theorem initArgs_eq (h : initArgs p l = some vars) (n : String) :
    vars n = (assigned (argName p) l.argMatches.given n).or
      ((assigned (argName p) l.config n).or
        ((assigned (argName p) (l.ini ".env") n).or (l.vars n))) := by
  unfold initArgs at h
  simp only [Option.bind_eq_bind, Option.bind_eq_some_iff] at h
  obtain ⟨vars₁, henv, vars₂, hconfig, hargs⟩ := h
  have hsecond : vars₂ n = (assigned (argName p) l.config n).or (vars₁ n) := by
    unfold initConfig at hconfig
    unfold Launch.config
    cases hvalue : l.argMatches.valueOf "config" with
    | none =>
        rw [hvalue] at hconfig
        cases hconfig
        rfl
    | some config =>
        rw [hvalue] at hconfig
        exact setVars_eq hconfig n
  rw [setVars_eq hargs, hsecond, setVars_eq henv]

/-- Of the arguments, only the option itself assigns to its variable. -/
theorem assigned_given (hp : p.Ascii) (m : ArgMatches hbbsOptions) {name : String}
    (hname : name ∈ hbbsOptions) :
    assigned (argName p) m.given (argName p name) = m.valueOf name := by
  obtain ⟨args, hnodup, hknown⟩ := m
  unfold ArgMatches.given ArgMatches.valueOf
  dsimp only
  induction args with
  | nil => rfl
  | cons arg rest ih =>
      obtain ⟨k, v⟩ := arg
      rw [List.map_cons, List.nodup_cons] at hnodup
      obtain ⟨hk, hknown⟩ := List.forall_mem_cons.mp hknown
      have hrest := ih hnodup.2 hknown
      by_cases hkey : k = name
      · subst hkey
        -- no other argument is called so
        have hnone : assigned (argName p)
            (rest.filterMap fun arg => arg.2.map fun v => (arg.1, v)) (argName p k) = none := by
          refine assigned_eq_none fun kv hkv heq => ?_
          obtain ⟨arg, harg, hv⟩ := List.mem_filterMap.mp hkv
          obtain ⟨v', -, rfl⟩ := Option.map_eq_some_iff.mp hv
          have hsame : arg.1 = k := argName_inj hp (hknown arg harg) hname heq
          exact hnodup.1 (List.mem_map.mpr ⟨arg, harg, hsame⟩)
        rw [List.lookup_cons_self]
        cases v with
        | none => exact hnone
        | some v =>
            unfold assigned at hnone ⊢
            rw [List.filterMap_cons_some (by rfl), List.filterMap_cons_some (b := v) (by simp),
              List.getLast?_cons, hnone]
            rfl
      · have hne : argName p k ≠ argName p name := fun h => hkey (argName_inj hp hk hname h)
        rw [List.lookup_cons, beq_false_of_ne (Ne.symm hkey), ← hrest]
        cases v with
        | none => rfl
        | some v =>
            unfold assigned
            rw [List.filterMap_cons_some (by rfl), List.filterMap_cons_none (by simp [hne])]

theorem initArgs_option (hp : p.Ascii) (h : initArgs p l = some vars) {name : String}
    (hname : name ∈ hbbsOptions) : vars (argName p name) = l.option p name := by
  rw [initArgs_eq h, assigned_given hp l.argMatches hname]
  rfl

/-- A variable with an underscore in its name is out of the reach of the
files and of the command line. -/
theorem initArgs_underscore (h : initArgs p l = some vars) {n : String} (hn : '_' ∈ n.toList) :
    vars n = l.vars n := by
  have hnone (pairs : List (String × String)) : assigned (argName p) pairs n = none := by
    refine assigned_eq_none fun kv _ heq => ?_
    exact underscore_not_mem_argName kv.1 (heq ▸ hn)
  rw [initArgs_eq h, hnone, hnone, hnone]
  rfl

end option

/-! ## The ports -/

section ports

theorem readDigits_toString (n : Nat) : ∃ ds, readDigits 10 (toString n).toList = (ds, [])
    ∧ ofDigits 10 ds = n ∧ ds ≠ [] := by
  have htext : (toString n).toList = Nat.toDigits 10 n ++ [] := by
    rw [List.append_nil]
    exact String.toList_ofList
  have hend : NoDigit 10 [] := fun c hc => by cases hc
  obtain ⟨ds, hread, hvalue, hlength⟩ := readDigits_toDigits (by omega) (by omega) n hend
  refine ⟨ds, by rw [htext, hread], hvalue, fun hnil => ?_⟩
  rw [hnil, List.length_nil] at hlength
  exact Nat.toDigits_ne_nil (List.eq_nil_of_length_eq_zero hlength.symm)

/-- A number does not begin with a sign. -/
theorem head_toString (n : Nat) {c : Char} {cs : List Char} (h : (toString n).toList = c :: cs) :
    c ≠ '+' ∧ c ≠ '-' := by
  obtain ⟨ds, hread, -, hne⟩ := readDigits_toString n
  rw [h, readDigits] at hread
  constructor
  · rintro rfl
    rw [show toDigit 10 '+' = none by decide] at hread
    exact hne (congrArg Prod.fst hread).symm
  · rintro rfl
    rw [show toDigit 10 '-' = none by decide] at hread
    exact hne (congrArg Prod.fst hread).symm

theorem parseUnsigned_toString (bits n : Nat) :
    parseUnsigned bits (toString n) = if n < 2 ^ bits then some n else none := by
  obtain ⟨ds, hread, hvalue, hne⟩ := readDigits_toString n
  unfold parseUnsigned
  split
  · rename_i cs hplus
    exact ((head_toString n hplus).1 rfl).elim
  · dsimp only
    rw [hread]
    simp [hne, hvalue]

theorem parseI32_toString {n : Nat} (h : n < 2 ^ 31) : parseI32 (toString n) = some (n : Int) := by
  obtain ⟨ds, hread, hvalue, hne⟩ := readDigits_toString n
  unfold parseI32
  split
  · rename_i cs hminus
    exact ((head_toString n hminus).2 rfl).elim
  · rename_i cs hplus
    exact ((head_toString n hplus).1 rfl).elim
  · rw [parseI32Digits, hread]
    simp [hne, hvalue]
    omega

/-- Both servers run in one directory with the same variables, and the port is
given by `PORT` in capitals, or not at all. -/
structure SameSettings (p : Platform) (l : Launch hbbsOptions) (l' : Launch hbbrOptions) :
    Prop where
  vars : l'.vars = l.vars
  env : l'.ini ".env" = l.ini ".env"
  capitals : ∀ kv ∈ l.ini ".env", argName p kv.1 = "PORT" → kv.1 = "PORT"
  config : assigned (argName p) l.config "PORT" = none
  noPort : l.argMatches.valueOf "port" = none
  noPort' : l'.argMatches.valueOf "port" = none

variable {p : Platform} {l : Launch hbbsOptions} {l' : Launch hbbrOptions}

theorem argName_port (hp : p.Ascii) : argName p "port" = "PORT" ∧ argName p "PORT" = "PORT" := by
  rw [argName_of_ascii hp (by decide), argName_of_ascii hp (by decide)]
  decide

/-- Both see the same text in `PORT`. -/
theorem SameSettings.port (h : SameSettings p l l') (hp : p.Ascii) {vars vars' : Vars}
    (hvars : initArgs p l = some vars) (hvars' : setVars id l'.vars (l'.ini ".env") = some vars') :
    vars' "PORT" = vars (argName p "port") := by
  have hport : argName p "port" = "PORT" := (argName_port hp).1
  have hsame : assigned (argName p) (l.ini ".env") "PORT" = assigned id (l.ini ".env") "PORT" := by
    unfold assigned
    congr 1
    refine List.filterMap_congr fun kv hkv => ?_
    have hiff : argName p kv.1 = "PORT" ↔ kv.1 = "PORT" :=
      ⟨h.capitals kv hkv, fun heq => heq ▸ (argName_port hp).2⟩
    simp only [id, hiff]
  rw [initArgs_option hp hvars (by decide : "port" ∈ hbbsOptions), Launch.option, hport, h.noPort,
    h.config, hsame, setVars_eq hvars', h.env, h.vars]
  rfl

theorem hbbsPorts_nodup {a : Int} {r : Nat} (ha : 3 ≤ a) (hr : (r : Int) = a + 1)
    (hlt : r < 2 ^ 16) : (hbbsPorts a ++ [r, (r + 2) % 2 ^ 16]).Nodup := by
  simp only [hbbsPorts, List.map_cons, List.map_nil, List.cons_append, List.nil_append,
    List.nodup_cons, List.mem_cons, List.not_mem_nil, or_false, not_false_eq_true, List.nodup_nil,
    and_true]
  omega

/-- **Five ports.** Where hbbs and hbbr are started with the same settings and
both come up, no two of their listeners are on the same port. -/
theorem ports_apart (hp : p.Ascii) (h : SameSettings p l l')
    (hrelay : p.relayPort = p.rendezvousPort + 1) {s : HbbsStart} {ports : List Nat} {key : String}
    (hhbbs : hbbsMain p l = some s) (hhbbr : hbbrMain p l' = some (ports, key)) :
    (hbbsPorts s.port ++ ports).Nodup := by
  simp only [hbbsMain, hbbrMain, Option.bind_eq_bind, Option.bind_eq_some_iff] at hhbbs hhbbr
  obtain ⟨vars, hvars, a, ha, hs⟩ := hhbbs
  obtain ⟨vars', hvars', r, hr, hports⟩ := hhbbr
  cases hports
  rw [h.noPort', Option.getD_none, parseUnsigned_toString] at hr
  split at hr
  · rename_i hlt
    cases hr
    split at hs
    · cases hs
    · rename_i hthree
      cases hs
      show (hbbsPorts a ++ _).Nodup
      refine hbbsPorts_nodup (by omega) ?_ hlt
      unfold hbbrPort at hlt ⊢
      rw [h.port hp hvars hvars'] at hlt ⊢
      unfold getArgOr at ha
      cases htext : vars (argName p "port") with
      | none =>
          rw [htext] at ha hlt
          have hnumber : parseI32 (toString p.rendezvousPort) = some (p.rendezvousPort : Int) :=
            parseI32_toString (by dsimp only at hlt; omega)
          cases hnumber.symm.trans ha
          dsimp only
          omega
      | some v =>
          rw [htext] at ha
          replace ha : parseI32 v = some a := ha
          simp only [ha, Option.getD_some]
          split
          · omega
          · omega
  · cases hr

end ports

/-! A directory with `PORT=30000` in its `.env`. -/

def asciiPlatform : Platform where
  upper c := [c.toUpper]
  rendezvousPort := 21116
  relayPort := 21117

theorem asciiPlatform_ascii : asciiPlatform.Ascii := fun _ _ => rfl

/-- A command line without arguments. -/
def ArgMatches.bare (options : List String) : ArgMatches options where
  args := []
  nodup := .nil
  known := List.forall_mem_nil _

def portInEnv (options : List String) : Launch options where
  vars _ := none
  ini file := if file = ".env" then [("PORT", "30000")] else []
  argMatches := .bare options

theorem portInEnv_same :
    SameSettings asciiPlatform (portInEnv hbbsOptions) (portInEnv hbbrOptions) where
  vars := rfl
  env := rfl
  capitals _ hkv _ := congrArg Prod.fst (List.mem_singleton.mp hkv)
  config := rfl
  noPort := rfl
  noPort' := rfl

theorem ports_apart_env : ∃ s ports key,
    hbbsMain asciiPlatform (portInEnv hbbsOptions) = some s
    ∧ hbbrMain asciiPlatform (portInEnv hbbrOptions) = some (ports, key)
    ∧ hbbsPorts s.port ++ ports = [30000, 29999, 30002, 30001, 30003]
    ∧ (hbbsPorts s.port ++ ports).Nodup := by
  have hhbbs : (hbbsMain asciiPlatform (portInEnv hbbsOptions)).map HbbsStart.port
      = some 30000 := by decide +kernel
  have hhbbr : hbbrMain asciiPlatform (portInEnv hbbrOptions) = some ([30001, 30003], "") := by
    decide +kernel
  obtain ⟨s, hs, hport⟩ := Option.map_eq_some_iff.mp hhbbs
  refine ⟨s, _, _, hs, hhbbr, ?_, ports_apart asciiPlatform_ascii portInEnv_same rfl hs hhbbr⟩
  rw [hport]
  decide

end KustDesk
