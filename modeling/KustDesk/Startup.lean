import KustDesk.MainChannel
import KustDesk.Options
import KustDesk.ServerKey

/-!
# KustDesk — Startup

hbbs from its start on: what it is set to by the options it is given, and what
it is set to later, by the commands of the host.
-/

namespace KustDesk

open Async Codec

/-! ## The start -/

/-- What the libraries and the system contribute to the start. -/
structure StartLibs where
  b64 : Base64
  skEnv : SkEnv
  files : KeyFiles
  versionFromUrl : String → String
  parseMask : String → Option Ipv4Network
  /-- The address of the host in its network, or nothing. -/
  localIp : String
  secureTcpPkB : Bytes
  secureTcpSkB : Bytes
  /-- The database under an URL. -/
  database : String → Database

section start
variable (p : Platform) (x : External) (lib : StartLibs)

/-- `PeerMap::new`: where the database is. -/
def dbUrl (vars : Vars) : String := (vars "DB_URL").getD "./db_v2.sqlite3"

/-- `ALWAYS_USE_RELAY` as `start` sets it. -/
def startAlwaysUseRelay (vars : Vars) : Bool := isYes ((vars "ALWAYS_USE_RELAY").getD "")

/-- `MUST_LOGIN` as `start` sets it: the option goes before the variable. -/
def startMustLogin (vars : Vars) : Bool :=
  let mustLogin := getArg p vars "must-login"
  isYes mustLogin || (mustLogin = "" && isYes ((vars "MUST_LOGIN").getD ""))

/-- `RendezvousServer::start`, up to the first turn of the main task: what its
tasks are parameterised with, and their state. It ends where the key file is
malformed. -/
def startHbbs (s : HbbsStart) : Option (Config × Hbbs) :=
  (RendezvousServer.getServerSk lib.b64 lib.skEnv lib.files s.key).1.map fun (key, sk) =>
    let softwareUrl := getArg p s.vars "software-url"
    let mask := lib.parseMask (getArg p s.vars "mask")
    let inner : Inner := {
      serial := s.serial
      version := lib.versionFromUrl softwareUrl
      softwareUrl
      mask
      localIp := if mask.isNone then "" else getArgOr p s.vars "local-ip" lib.localIp
      sk
      secureTcpPkB := lib.secureTcpPkB
      secureTcpSkB := lib.secureTcpSkB }
    let rs : RendezvousServer := {
      inner
      rendezvousServers := getServers x (getArg p s.vars "rendezvous-servers") }
    ({ x, key, secret := (s.vars "RUSTDESK_API_JWT_KEY").getD "" },
      { shared := { Shared.start (lib.database (dbUrl s.vars)) with
          alwaysUseRelay := startAlwaysUseRelay s.vars
          mustLogin := startMustLogin p s.vars }
        main := .start x rs (getArg p s.vars "relay-servers") })

end start

/-! ## What a flag is set to -/

/-- The argument of a command. -/
@[irreducible] def cmdArg (cmd : String) : Option String := (cmdWords cmd).tail.head?

theorem CmdIs.cmdArg {cmd : String} {word : CmdWord} {fds : List String} (h : CmdIs cmd word fds) :
    cmdArg cmd = fds.head? := by
  obtain ⟨w, -, hwords⟩ := h
  unfold KustDesk.cmdArg
  rw [hwords]
  rfl

def HbbsOp.names (flag : Flag) : HbbsOp → Bool
  | .setting word => word = flag.word
  | _ => false

section Run
variable {ι : Type} [DecidableEq ι] {cfg : Config} {turns : List Ready} {jobs : ι → HbbsJob}
  {w : Hbbs} {es : List (Option ι × HbbsEvent)}
  {q : Pool (Option ι) Env HbbsOp Hbbs fun _ => Unit}

/-- The command that a task serves. -/
def HbbsJob.command : HbbsJob → Option String
  | .natPort c => c.command
  | _ => none

/-- What a step sets the flag to: the argument of the command that names it. -/
def flagSet (jobs : ι → HbbsJob) (flag : Flag) (y : Option ι × HbbsEvent) : Option Bool :=
  if y.2.op.names flag then
    ((y.1.bind fun j => (jobs j).command).bind cmdArg).map isYes
  else none

theorem CmdWord.run_own (flag : Flag) (e : Env) (s : Shared) (fds : List String) :
    flag.of (flag.word.run e s fds) = (fds.head?.map isYes).getD (flag.of s) := by
  cases flag <;> cases fds <;> rfl

theorem CmdWord.run_other {flag : Flag} {word : CmdWord} (h : word ≠ flag.word) (e : Env)
    (s : Shared) (fds : List String) : flag.of (word.run e s fds) = flag.of s := by
  by_contra hne
  exact h (CmdWord.run_flag hne).1

theorem flag_step (h : (hbbs cfg turns jobs w).Run es q) {i : Option ι} {ev : HbbsEvent}
    (hev : (i, ev) ∈ es) (flag : Flag) : flag.of ev.post.shared
      = (flagSet jobs flag (i, ev)).getD (flag.of ev.pre.shared) := by
  have heffect : ev.op.effect cfg.x ev.env ev.pre ev.post := hbbs_effect h hev
  by_cases hsetting : ∃ word, ev.op = .setting word
  · obtain ⟨word, hop⟩ := hsetting
    cases i with
    | none =>
        have hmain := (hbbs_main_effect h hev).ofMain
        simp [hop, HbbsOp.ofMain] at hmain
    | some j =>
        obtain ⟨c, cmd, fds, hjob, -, hcmd, his, hpost⟩ := (hbbs_job_step h hev).of_setting hop
        rw [hpost]
        by_cases hword : word = flag.word
        · have hset : flagSet jobs flag (some j, ev) = fds.head?.map isYes := by
            simp [flagSet, hop, HbbsOp.names, hword, HbbsJob.command, hjob, hcmd, his.cmdArg]
          subst hword
          rw [hset]
          exact CmdWord.run_own flag ev.env ev.pre.shared fds
        · have hset : flagSet jobs flag (some j, ev) = none := by
            simp [flagSet, hop, HbbsOp.names, hword]
          rw [hset]
          exact CmdWord.run_other hword ev.env ev.pre.shared fds
  · have hset : flagSet jobs flag (i, ev) = none := by
      have hnames : ev.op.names flag = false := by
        unfold HbbsOp.names
        split
        · rename_i word hop
          exact (hsetting ⟨word, hop⟩).elim
        · rfl
      simp [flagSet, hnames]
    rw [hset]
    by_contra hne
    exact hsetting (heffect.flag hne)

/-- A flag is what the last command made of it. -/
theorem flag_last (h : (hbbs cfg turns jobs w).Run es q) (flag : Flag) :
    flag.of q.shared.shared
      = ((es.filterMap (flagSet jobs flag)).getLast?).getD (flag.of w.shared) := by
  refine h.invariant (J := fun es s => flag.of s.shared
    = ((es.filterMap (flagSet jobs flag)).getLast?).getD (flag.of w.shared)) rfl ?_
  intro es q i e op f k hrun hi ih
  have hstep := flag_step (hrun.step i e hi) (List.mem_concat_self ..) flag
  dsimp only at hstep
  rw [hstep, ih, List.filterMap_append, List.getLast?_append]
  cases hset : flagSet jobs flag (i, ⟨op, e, q.shared, f e q.shared⟩) with
  | none => simp [hset]
  | some b => simp [hset]

end Run

/-! ## From the start on -/

section Life
variable {p : Platform} {x : External} {lib : StartLibs} {l : Launch hbbsOptions} {s : HbbsStart}
  {cfg : Config} {w : Hbbs}

theorem hbbsMain_vars (h : hbbsMain p l = some s) : initArgs p l = some s.vars := by
  simp only [hbbsMain, Option.bind_eq_bind, Option.bind_eq_some_iff] at h
  obtain ⟨vars, hvars, port, -, hs⟩ := h
  split at hs
  · cases hs
  · cases hs
    exact hvars

theorem getArg_option (hp : p.Ascii) (h : hbbsMain p l = some s) {name : String}
    (hname : name ∈ hbbsOptions) : getArg p s.vars name = (l.option p name).getD "" := by
  rw [getArg, getArgOr, initArgs_option hp (hbbsMain_vars h) hname]

/-- What `start` makes of the options. -/
structure Started (p : Platform) (x : External) (lib : StartLibs) (l : Launch hbbsOptions)
    (cfg : Config) (w : Hbbs) : Prop where
  libs : cfg.x = x
  secret : cfg.secret = (l.vars "RUSTDESK_API_JWT_KEY").getD ""
  database : w.shared.pm.db = lib.database ((l.vars "DB_URL").getD "./db_v2.sqlite3")
  alwaysUseRelay : w.shared.alwaysUseRelay = isYes ((l.vars "ALWAYS_USE_RELAY").getD "")
  mustLogin : w.shared.mustLogin = (isYes ((l.option p "must-login").getD "")
    || ((l.option p "must-login").getD "" = "" && isYes ((l.vars "MUST_LOGIN").getD "")))
  relayServers : w.main.relayServers0 = getServers x ((l.option p "relay-servers").getD "")
  channel : w.main.rx = []

theorem startHbbs_started (hp : p.Ascii) (hmain : hbbsMain p l = some s)
    (hstart : startHbbs p x lib s = some (cfg, w)) : Started p x lib l cfg w := by
  have hvars := hbbsMain_vars hmain
  -- the names with an underscore are read as the process has them
  have hown (n : String) (hn : '_' ∈ n.toList) : s.vars n = l.vars n := initArgs_underscore hvars hn
  obtain ⟨⟨key, sk⟩, -, hcfg⟩ := Option.map_eq_some_iff.mp hstart
  obtain ⟨rfl, rfl⟩ := Prod.mk.inj hcfg
  exact {
    libs := rfl
    secret := by rw [← hown _ (by decide)]
    database := by rw [← hown _ (by decide)]; rfl
    alwaysUseRelay := by rw [← hown _ (by decide)]; rfl
    mustLogin := by
      rw [← hown "MUST_LOGIN" (by decide), ← getArg_option hp hmain (by decide)]
      rfl
    relayServers := by
      rw [← getArg_option hp hmain (by decide)]
      rfl
    channel := rfl }

variable {ι : Type} [DecidableEq ι] {turns : List Ready} {jobs : ι → HbbsJob}
  {es : List (Option ι × HbbsEvent)} {q : Pool (Option ι) Env HbbsOp Hbbs fun _ => Unit}

/-- **From the start on.** At any moment in the life of hbbs, always-use-relay
is what the last command made of it, and before the first one, what the
variables of the process say, whatever stands in the files and on the command
line; must-login likewise, with the option before the variable; the configured
relay servers are those of the last list that has come through the channel,
and before the first one, those of the option. The secret of the tokens and the
database are those that the variables of the process name. -/
theorem settings_from_start (hp : p.Ascii) (hmain : hbbsMain p l = some s)
    (hstart : startHbbs p x lib s = some (cfg, w)) (h : (hbbs cfg turns jobs w).Run es q) :
    q.shared.shared.alwaysUseRelay = ((es.filterMap (flagSet jobs .alwaysUseRelay)).getLast?).getD
        (isYes ((l.vars "ALWAYS_USE_RELAY").getD ""))
    ∧ q.shared.shared.mustLogin = ((es.filterMap (flagSet jobs .mustLogin)).getLast?).getD
        (isYes ((l.option p "must-login").getD "")
          || ((l.option p "must-login").getD "" = "" && isYes ((l.vars "MUST_LOGIN").getD "")))
    ∧ (∃ done, listsSent es = done ++ q.shared.main.rx.filterMap Data.list
      ∧ q.shared.main.relayServers0
        = getServers x (done.getLast?.getD ((l.option p "relay-servers").getD "")))
    ∧ cfg.secret = (l.vars "RUSTDESK_API_JWT_KEY").getD ""
    ∧ w.shared.pm.db = lib.database ((l.vars "DB_URL").getD "./db_v2.sqlite3") := by
  have hstarted := startHbbs_started hp hmain hstart
  have hrelay := flag_last h .alwaysUseRelay
  have hlogin := flag_last h .mustLogin
  obtain ⟨done, hsent, hlist⟩ := sent_configured h hstarted.channel
  rw [← hstarted.alwaysUseRelay, ← hstarted.mustLogin]
  refine ⟨hrelay, hlogin, ⟨done, hsent, ?_⟩, hstarted.secret, hstarted.database⟩
  rw [hlist, hstarted.relayServers, hstarted.libs]
  cases done.getLast? with
  | none => rfl
  | some arg => rfl

end Life

/-! Both flags are asked for in `.env`. Only one of them is an option. -/

def flagsInEnv : Launch hbbsOptions where
  vars _ := none
  ini file := if file = ".env" then [("ALWAYS_USE_RELAY", "Y"), ("MUST_LOGIN", "Y")] else []
  argMatches := .bare hbbsOptions

def plainLibs : StartLibs where
  b64 := .standard
  skEnv := works
  files := {}
  versionFromUrl _ := ""
  parseMask _ := none
  localIp := ""
  secureTcpPkB := []
  secureTcpSkB := []
  database _ := .empty

theorem settings_from_start_env : ∃ s cfg w, hbbsMain asciiPlatform flagsInEnv = some s
    ∧ startHbbs asciiPlatform dottedNames plainLibs s = some (cfg, w)
    ∧ w.shared.alwaysUseRelay = false ∧ w.shared.mustLogin = true := by
  have hmain : (hbbsMain asciiPlatform flagsInEnv).isSome = true := by decide +kernel
  obtain ⟨s, hs⟩ := Option.isSome_iff_exists.mp hmain
  have hstart : ((hbbsMain asciiPlatform flagsInEnv).bind
      (startHbbs asciiPlatform dottedNames plainLibs)).isSome = true := by decide +kernel
  rw [hs, Option.bind_some] at hstart
  obtain ⟨⟨cfg, w⟩, hw⟩ := Option.isSome_iff_exists.mp hstart
  obtain ⟨hrelay, hlogin, -⟩ := settings_from_start asciiPlatform_ascii hs hw
    (.start : (hbbs cfg [] (fun _ : Unit => .check 0) w).Run [] _)
  exact ⟨s, cfg, w, hs, hw, hrelay, hlogin.trans (by decide +kernel)⟩

end KustDesk
