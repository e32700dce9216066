import NativeInitLab.Tcpctl.Run

namespace NativeInitLab.Tcpctl

/-! `a90_tcpctl`: the lines of a client, and the clients of a server. -/

def ascii (text : String) : Bytes := text.toList.map fun character => character.toNat.toUInt8

def maxArgs : Nat := 32

def einval : Nat := 22

def isBlank (byte : UInt8) : Bool := byte == 0x20 || byte == 0x09

/-- The loop of `split_args`, with the slots of `argv` that are left. -/
def splitWords : Nat → Bytes → List Bytes
  | 0, _ => []
  | slots + 1, line =>
    match line.dropWhile isBlank with
    | [] => []
    | first :: rest =>
      if first = 0x23 then []
      else
        (first :: rest).takeWhile (!isBlank ·) ::
          splitWords slots (((first :: rest).dropWhile (!isBlank ·)).drop 1)

/-- `split_args` on a line up to its NUL; the last slot holds the null pointer. -/
def splitArgs (line : Bytes) : List Bytes :=
  splitWords (maxArgs - 1) (line.takeWhile (· != 0))

structure Config where
  maxClients : Nat
  tokenPath : Option Bytes
  requireAuth : Bool

def isTokenEnd (byte : UInt8) : Bool :=
  byte == 0 || byte == 0x0D || byte == 0x0A || byte == 0x20 || byte == 0x09

/-- `read_token_file` into a buffer of 128 bytes, on what opening and reading the file gives. -/
def readTokenFile (path : Option Bytes) (file : Except Nat Bytes) : Except Nat Bytes :=
  if path = none ∨ path = some [] ∨ path = some (ascii "-") then .error einval
  else
    match file with
    | .error errno => .error errno
    | .ok content =>
      let token := (content.take 127).takeWhile (!isTokenEnd ·)
      if token = [] then .error einval else .ok token

/-- One pass of the loop of `handle_client`: what `read_line` returns, the token file at that time,
whether the answer to an `auth` line can be sent, what `command_status` finds, and how a child is
made. -/
structure Exchange where
  line : Except Int Bytes
  tokenFile : Except Nat Bytes := .error 2
  answered : Bool := true
  status : List Reply := []
  spawn : Spawn := .pipeFailed 24

inductive Effect where
  | started (argv : List Bytes)
  | stopped
  deriving DecidableEq

/-- `replies` is missing for a child whose turns are not those of a whole run. -/
structure Step where
  authenticated : Bool
  ended : Bool := true
  effect : Option Effect := none
  replies : Option (List Reply) := none

def Config.authRequired (config : Config) : Bool := config.requireAuth

def clientAuthorized (config : Config) (authenticated : Bool) : Bool :=
  !config.authRequired || authenticated

def commandAuth (config : Config) (authenticated : Bool) (exchange : Exchange)
    (argv : List Bytes) : Bool × Reply :=
  if config.authRequired = false then (true, .authNotRequired)
  else
    match argv with
    | [_, argument] =>
      match readTokenFile config.tokenPath exchange.tokenFile with
      | .error errno => (authenticated, .authTokenUnavailable errno)
      | .ok expected =>
        if argument = expected then (true, .authenticated) else (authenticated, .authFailed)
    | _ => (authenticated, .authUsage)

def commandHelp (config : Config) : List Reply :=
  [.line "commands:\n", .line "  help\n", .line "  ping\n", .line "  version\n", .line "  status\n"] ++
    (if config.authRequired then [.line "  auth <token>\n"] else []) ++
    [.line "  run <absolute-path> [args...]\n", .line "  quit\n", .line "  shutdown\n", ok]

def startedBy (authorized : Bool) (argv : List Bytes) (spawn : Spawn) : Option Effect :=
  match authorized, argv, spawn with
  | true, _ :: path :: arguments, .forked _ _ =>
    if path.head? = some 0x2F then some (.started (path :: arguments)) else none
  | _, _, _ => none

def handleAuth (config : Config) (authenticated : Bool) (exchange : Exchange)
    (argv : List Bytes) : Step :=
  let (now, reply) := commandAuth config authenticated exchange argv
  { authenticated := now
    ended := !exchange.answered || (!now && config.authRequired)
    replies := some [reply] }

def handleRun (config : Config) (authenticated : Bool) (exchange : Exchange)
    (argv : List Bytes) : Step :=
  let authorized := clientAuthorized config authenticated
  { authenticated
    effect := startedBy authorized argv exchange.spawn
    replies := commandRun authorized argv exchange.spawn }

def handleShutdown (config : Config) (authenticated : Bool) : Step :=
  if clientAuthorized config authenticated = false then
    { authenticated, replies := some [.authRequired] }
  else
    { authenticated, effect := some .stopped, replies := some [.line "OK shutdown\n"] }

/-- The commands of `handle_client`, in the order of its tests. -/
def handleCommand (config : Config) (authenticated : Bool) (exchange : Exchange) (name : Bytes)
    (argv : List Bytes) : Step :=
  if name = ascii "help" then { authenticated, replies := some (commandHelp config) }
  else if name = ascii "ping" then { authenticated, replies := some [.line "pong\n", ok] }
  else if name = ascii "version" then
    { authenticated, replies := some [.line "a90_tcpctl v1\n", ok] }
  else if name = ascii "status" then { authenticated, replies := some (exchange.status ++ [ok]) }
  else if name = ascii "auth" then handleAuth config authenticated exchange argv
  else if name = ascii "run" then handleRun config authenticated exchange argv
  else if name = ascii "quit" then { authenticated, replies := some [.line "OK bye\n"] }
  else if name = ascii "shutdown" then handleShutdown config authenticated
  else { authenticated, replies := some [.unknownCommand name] }

def handleLine (config : Config) (authenticated : Bool) (exchange : Exchange) : Step :=
  match exchange.line with
  | .error rc => { authenticated, replies := some [.readError rc] }
  | .ok line =>
    match splitArgs line with
    | [] => { authenticated, replies := some [.empty] }
    | name :: arguments =>
      handleCommand config authenticated exchange name (name :: arguments)

def handleLines (config : Config) : Bool → List Exchange → List Step
  | _, [] => []
  | authenticated, exchange :: rest =>
    let step := handleLine config authenticated exchange
    step :: (if step.ended then [] else handleLines config step.authenticated rest)

def handleClient (config : Config) (exchanges : List Exchange) : List Step :=
  handleLines config false exchanges

inductive Event where
  | interrupted
  | failed
  | idle
  | client (exchanges : List Exchange)

def commandListen (config : Config) : Nat → List Event → List (List Exchange × List Step)
  | _, [] => []
  | served, event :: rest =>
    if config.maxClients ≠ 0 ∧ config.maxClients ≤ served then []
    else
      match event with
      | .interrupted => commandListen config served rest
      | .failed => []
      | .idle => []
      | .client exchanges =>
        let steps := handleClient config exchanges
        (exchanges, steps) :: (if steps.any fun step => step.effect == some .stopped then []
          else commandListen config (served + 1) rest)

def Exchange.argv (exchange : Exchange) : List Bytes :=
  match exchange.line with
  | .error _ => []
  | .ok line => splitArgs line

def Exchange.isAuth (exchange : Exchange) : Bool := exchange.argv.head? == some (ascii "auth")

/-- An `auth` line whose one argument is the token that the file holds at that time. -/
def Exchange.Grants (config : Config) (exchange : Exchange) : Prop :=
  ∃ argument, exchange.argv = [ascii "auth", argument] ∧
    readTokenFile config.tokenPath exchange.tokenFile = .ok argument

section Lines

variable {config : Config} {authenticated : Bool} {exchange : Exchange}

theorem handleLine_eq (name : Bytes) (arguments : List Bytes)
    (hargv : exchange.argv = name :: arguments) :
    handleLine config authenticated exchange =
      handleCommand config authenticated exchange name (name :: arguments) := by
  unfold handleLine
  unfold Exchange.argv at hargv
  cases hline : exchange.line with
  | error rc =>
    rw [hline] at hargv
    cases hargv
  | ok line =>
    rw [hline] at hargv
    dsimp only at hargv ⊢
    rw [hargv]

theorem handleLine_of_nil (hargv : exchange.argv = []) :
    ∃ reply, handleLine config authenticated exchange =
      { authenticated, replies := some [reply] } := by
  unfold handleLine
  unfold Exchange.argv at hargv
  cases hline : exchange.line with
  | error rc => exact ⟨_, rfl⟩
  | ok line =>
    rw [hline] at hargv
    dsimp only at hargv ⊢
    rw [hargv]
    exact ⟨_, rfl⟩

theorem handleLine_auth {arguments : List Bytes} (hargv : exchange.argv = ascii "auth" :: arguments) :
    handleLine config authenticated exchange =
      handleAuth config authenticated exchange (ascii "auth" :: arguments) := by
  rw [handleLine_eq _ _ hargv]
  rfl

theorem commandAuth_grants (hrequired : config.requireAuth = true) {arguments : List Bytes}
    (hargv : exchange.argv = ascii "auth" :: arguments) :
    (commandAuth config authenticated exchange (ascii "auth" :: arguments)).1 = true ↔
      authenticated = true ∨ exchange.Grants config := by
  unfold commandAuth Config.authRequired Exchange.Grants
  rw [if_neg (by rw [hrequired]; decide), hargv]
  match arguments with
  | [] => simp
  | [argument] =>
    dsimp only
    cases readTokenFile config.tokenPath exchange.tokenFile with
    | error errno => simp
    | ok expected =>
      by_cases hequal : argument = expected
      · simp [hequal]
      · simp [hequal, Ne.symm hequal]
  | _ :: _ :: _ => simp

structure Step.Plain (config : Config) (authenticated : Bool) (step : Step) : Prop where
  flag : step.authenticated = authenticated
  ended : step.ended = true
  allowed : step.effect ≠ none → clientAuthorized config authenticated = true

theorem plain_answer (replies : Option (List Reply)) :
    Step.Plain config authenticated { authenticated, replies } :=
  ⟨rfl, rfl, fun h => absurd rfl h⟩

theorem plain_handleRun (argv : List Bytes) :
    Step.Plain config authenticated (handleRun config authenticated exchange argv) := by
  refine ⟨rfl, rfl, fun h => ?_⟩
  cases hauthorized : clientAuthorized config authenticated with
  | true => rfl
  | false =>
    unfold handleRun startedBy at h
    rw [hauthorized] at h
    exact absurd rfl h

theorem plain_handleShutdown :
    Step.Plain config authenticated (handleShutdown config authenticated) := by
  unfold handleShutdown
  split
  case isTrue => exact plain_answer _
  case isFalse hauthorized => exact ⟨rfl, rfl, fun _ => by simpa using hauthorized⟩

theorem plain_handleLine (hauth : exchange.isAuth = false) :
    (handleLine config authenticated exchange).Plain config authenticated := by
  cases hargv : exchange.argv with
  | nil =>
    obtain ⟨reply, hline⟩ := @handleLine_of_nil config authenticated exchange hargv
    rw [hline]
    exact plain_answer _
  | cons name arguments =>
    have hname : name ≠ ascii "auth" := by
      rintro rfl
      rw [Exchange.isAuth, hargv] at hauth
      exact absurd hauth (by simp)
    rw [handleLine_eq name arguments hargv, handleCommand, if_neg hname]
    split
    · exact plain_answer _
    split
    · exact plain_answer _
    split
    · exact plain_answer _
    split
    · exact plain_answer _
    split
    · exact plain_handleRun _
    split
    · exact plain_answer _
    split
    · exact plain_handleShutdown
    · exact plain_answer _

theorem exists_arguments (hauth : exchange.isAuth = true) :
    ∃ arguments, exchange.argv = ascii "auth" :: arguments := by
  unfold Exchange.isAuth at hauth
  cases hargv : exchange.argv with
  | nil =>
    rw [hargv] at hauth
    exact absurd hauth (by decide)
  | cons name arguments =>
    rw [hargv, List.head?_cons] at hauth
    exact ⟨arguments, by rw [Option.some.inj (eq_of_beq hauth)]⟩

section

variable (hrequired : config.requireAuth = true)
include hrequired

theorem effect_needs_flag (heffect : (handleLine config authenticated exchange).effect ≠ none) :
    authenticated = true := by
  cases hauth : exchange.isAuth with
  | false =>
    have hallowed := (plain_handleLine hauth).allowed heffect
    simpa [clientAuthorized, Config.authRequired, hrequired] using hallowed
  | true =>
    obtain ⟨arguments, hargv⟩ := exists_arguments hauth
    rw [handleLine_auth hargv] at heffect
    exact absurd rfl heffect

theorem flag_iff_grant :
    (handleLine config authenticated exchange).authenticated = true ↔
      authenticated = true ∨ exchange.Grants config := by
  cases hauth : exchange.isAuth with
  | false =>
    have hgrants : ¬ exchange.Grants config := by
      rintro ⟨argument, hargv, -⟩
      rw [Exchange.isAuth, hargv] at hauth
      cases hauth
    rw [(plain_handleLine hauth).flag, or_iff_left hgrants]
  | true =>
    obtain ⟨arguments, hargv⟩ := exists_arguments hauth
    rw [handleLine_auth hargv]
    exact commandAuth_grants hrequired hargv

theorem failed_auth_ends (hauth : exchange.isAuth = true) (hgrants : ¬ exchange.Grants config) :
    (handleLine config false exchange).ended = true := by
  obtain ⟨arguments, hargv⟩ := exists_arguments hauth
  have hflag : (commandAuth config false exchange (ascii "auth" :: arguments)).1 = false := by
    rw [Bool.eq_false_iff]
    intro h
    exact ((commandAuth_grants hrequired hargv).mp h).elim nofun hgrants
  rw [handleLine_auth hargv]
  change (!exchange.answered || (!(commandAuth _ _ _ _).1 && config.requireAuth)) = true
  rw [hflag, hrequired]
  exact Bool.or_true _

theorem effect_needs_grant (exchanges : List Exchange) (authenticated : Bool) (index : Nat)
    (step : Step) (hstep : (handleLines config authenticated exchanges)[index]? = some step)
    (heffect : step.effect ≠ none) :
    authenticated = true ∨ ∃ earlier < index, ∃ exchange, exchanges[earlier]? = some exchange ∧
        exchange.Grants config := by
  induction exchanges generalizing authenticated index with
  | nil => cases hstep
  | cons exchange rest ih =>
    rw [handleLines] at hstep
    cases index with
    | zero =>
      cases hstep
      exact .inl (effect_needs_flag hrequired heffect)
    | succ index =>
      rw [List.getElem?_cons_succ] at hstep
      split at hstep
      case isTrue => cases hstep
      case isFalse =>
        rcases ih _ _ hstep with hflag | ⟨earlier, hearlier, granting, hmem, hgrants⟩
        · rcases (flag_iff_grant hrequired).mp hflag with hbefore | hgrants
          · exact .inl hbefore
          · exact .inr ⟨0, Nat.zero_lt_succ _, exchange, rfl, hgrants⟩
        · exact .inr ⟨earlier + 1, Nat.succ_lt_succ hearlier, granting, hmem, hgrants⟩

theorem failed_auth_is_last (exchanges : List Exchange) (index : Nat) (exchange : Exchange)
    (step : Step) (hexchange : exchanges[index]? = some exchange)
    (hstep : (handleLines config false exchanges)[index]? = some step)
    (hauth : exchange.isAuth = true)
    (hnone : ∀ earlier ≤ index, ∀ other, exchanges[earlier]? = some other → ¬ other.Grants config) :
    step.ended = true ∧ (handleLines config false exchanges).length = index + 1 := by
  induction exchanges generalizing index with
  | nil => cases hexchange
  | cons first rest ih =>
    rw [handleLines] at hstep ⊢
    cases index with
    | zero =>
      cases hexchange
      cases hstep
      have hended := failed_auth_ends hrequired hauth (hnone 0 (Nat.le_refl _) _ rfl)
      rw [hended]
      exact ⟨rfl, rfl⟩
    | succ index =>
      rw [List.getElem?_cons_succ] at hstep hexchange
      have hfirst := hnone 0 (Nat.zero_le _) first rfl
      have hflag : (handleLine config false first).authenticated = false := by
        rw [Bool.eq_false_iff]
        exact fun h => ((flag_iff_grant hrequired).mp h).elim nofun hfirst
      rw [hflag] at hstep ⊢
      split at hstep
      case isTrue => cases hstep
      case isFalse hgoes =>
        rw [if_neg hgoes, List.length_cons]
        obtain ⟨hended, hlength⟩ := ih index hexchange hstep fun earlier hle other hother =>
          hnone (earlier + 1) (Nat.succ_le_succ hle) other hother
        exact ⟨hended, by rw [hlength]⟩

/-- An `auth` line of an authenticated connection ends it only if its answer cannot be sent. -/
theorem auth_after_grant (exchanges : List Exchange) (authenticated : Bool) (index : Nat)
    (exchange : Exchange) (step : Step) (hexchange : exchanges[index]? = some exchange)
    (hstep : (handleLines config authenticated exchanges)[index]? = some step)
    (hauth : exchange.isAuth = true)
    (hgranted : authenticated = true ∨ ∃ earlier < index, ∃ other : Exchange,
      exchanges[earlier]? = some other ∧ other.Grants config) :
    step.authenticated = true ∧ step.ended = !exchange.answered ∧
      (exchange.answered = true → ∀ next : Exchange, exchanges[index + 1]? = some next →
        (handleLines config authenticated exchanges)[index + 1]? =
          some (handleLine config true next)) := by
  induction exchanges generalizing authenticated index with
  | nil => cases hexchange
  | cons first rest ih =>
    rw [handleLines] at hstep ⊢
    cases index with
    | zero =>
      cases hexchange
      cases hstep
      have hbefore : authenticated = true := hgranted.resolve_right fun ⟨_, h, _⟩ => nomatch h
      have hflag := (@flag_iff_grant config authenticated exchange hrequired).mpr (.inl hbefore)
      have hended : (handleLine config authenticated exchange).ended = !exchange.answered := by
        obtain ⟨arguments, hargv⟩ := exists_arguments hauth
        rw [handleLine_auth hargv] at hflag ⊢
        change (!exchange.answered || (!(handleAuth _ _ _ _).authenticated && _)) = _
        rw [hflag]
        exact Bool.or_false _
      refine ⟨hflag, hended, fun hanswered next hnext => ?_⟩
      rw [List.getElem?_cons_succ] at hnext ⊢
      rw [hended, hanswered, hflag]
      cases rest with
      | nil => cases hnext
      | cons second others =>
        cases hnext
        rfl
    | succ index =>
      rw [List.getElem?_cons_succ] at hstep hexchange
      split at hstep
      case isTrue => cases hstep
      case isFalse hgoes =>
        rw [List.getElem?_cons_succ, List.getElem?_cons_succ, if_neg hgoes]
        refine ih _ index hexchange hstep ?_
        rcases hgranted with hbefore | ⟨earlier, hearlier, other, hother, hgrants⟩
        · exact .inl ((flag_iff_grant hrequired).mpr (.inl hbefore))
        · cases earlier with
          | zero =>
            cases hother
            exact .inl ((flag_iff_grant hrequired).mpr (.inr hgrants))
          | succ earlier =>
            exact .inr ⟨earlier, Nat.lt_of_succ_lt_succ hearlier, other, hother, hgrants⟩

end

theorem served_alone {events : List Event} {served : Nat} {exchanges : List Exchange}
    {steps : List Step} (hserved : (exchanges, steps) ∈ commandListen config served events) :
    steps = handleClient config exchanges := by
  induction events generalizing served with
  | nil => cases hserved
  | cons event rest ih =>
    unfold commandListen at hserved
    split at hserved
    case isTrue => cases hserved
    case isFalse =>
      cases event with
      | interrupted => exact ih hserved
      | failed => cases hserved
      | idle => cases hserved
      | client others =>
        rcases List.mem_cons.mp hserved with hfirst | hrest
        · cases hfirst
          rfl
        · split at hrest
          · cases hrest
          · exact ih hrest

/-- Authentication counts for its own connection only, and nothing is done without it.  A failed
`auth` line ends a connection that has none; one that has it goes on if the answer can be sent. -/
theorem authentication_is_per_connection (hrequired : config.requireAuth = true)
    {events : List Event} {exchanges : List Exchange} {steps : List Step}
    (hserved : (exchanges, steps) ∈ commandListen config 0 events) :
    steps = handleClient config exchanges ∧
    (∀ (index : Nat) (step : Step), steps[index]? = some step → step.effect ≠ none →
      ∃ earlier < index, ∃ exchange : Exchange, exchanges[earlier]? = some exchange ∧
        exchange.Grants config) ∧
    ∀ (index : Nat) (exchange : Exchange) (step : Step), exchanges[index]? = some exchange →
      steps[index]? = some step → exchange.isAuth = true →
      ((∀ earlier ≤ index, ∀ other : Exchange, exchanges[earlier]? = some other →
        ¬ other.Grants config) →
        step.ended = true ∧ steps.length = index + 1) ∧
      ((∃ earlier < index, ∃ other : Exchange, exchanges[earlier]? = some other ∧
        other.Grants config) →
        step.authenticated = true ∧ step.ended = !exchange.answered ∧
          (exchange.answered = true → ∀ next : Exchange, exchanges[index + 1]? = some next →
            steps[index + 1]? = some (handleLine config true next))) := by
  have hsteps := served_alone hserved
  subst hsteps
  refine ⟨rfl, fun index step hstep heffect => ?_,
    fun index exchange step hexchange hstep hauth => ⟨fun hnone => ?_, fun hgranted => ?_⟩⟩
  · exact (effect_needs_grant hrequired exchanges false index step hstep heffect).resolve_left nofun
  · exact failed_auth_is_last hrequired exchanges index exchange step hexchange hstep hauth hnone
  · exact auth_after_grant hrequired exchanges false index exchange step hexchange hstep hauth
      (.inr hgranted)

end Lines

/-! A client that authenticates, fails to do so again, and then runs a program. -/

def sampleConfig : Config where
  maxClients := 16
  tokenPath := some (ascii "/cache/token")
  requireAuth := true

def sampleExchange (line : String) : Exchange where
  line := .ok (ascii line)
  tokenFile := .ok (ascii "secret\n")
  spawn := .forked 7 []

def sampleExchanges : List Exchange :=
  [sampleExchange "auth secret", sampleExchange "auth wrong", sampleExchange "run /bin/id"]

theorem authentication_is_per_connection_for_run :
    ((handleClient sampleConfig sampleExchanges)[2]?.map Step.effect =
        some (some (.started [ascii "/bin/id"]))) ∧
      ∃ earlier < 2, ∃ exchange, sampleExchanges[earlier]? = some exchange ∧
        exchange.Grants sampleConfig := by
  refine ⟨by decide, ?_⟩
  have hserved : (sampleExchanges, handleClient sampleConfig sampleExchanges) ∈
      commandListen sampleConfig 0 [.client sampleExchanges] := List.mem_cons_self ..
  exact (authentication_is_per_connection rfl hserved).2.1 2
    { authenticated := true, effect := some (.started [ascii "/bin/id"]) } rfl
    (Option.some_ne_none _)

/-- After a grant a failed `auth` line does not end the connection. -/
theorem failed_auth_goes_on :
    (sampleExchanges[1]?.map fun exchange => exchange.isAuth) = some true ∧
      ((handleClient sampleConfig sampleExchanges)[1]?.map Step.replies =
        some (some [.authFailed])) ∧
      ((handleClient sampleConfig sampleExchanges)[1]?.map Step.ended = some false) ∧
      ((handleClient sampleConfig sampleExchanges)[2]?.map Step.effect =
        some (some (.started [ascii "/bin/id"]))) := by
  decide

end NativeInitLab.Tcpctl
