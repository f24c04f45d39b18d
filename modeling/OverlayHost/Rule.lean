/-!
# Rules, chains and rule sets

A rule is what stands after the chain in a command that appends it: a list of tokens. A rule set is all that
one chain has to hold. Two rule sets are equal if their chains are and their rules are, in order and token by token.
The rules of the planners that come with the agent are built here too.
-/

set_option autoImplicit false

namespace OverlayHost

/-- One packet-filter rule, as the tokens that follow the chain's name. -/
structure Rule where
  tokens : List String
deriving DecidableEq, Repr, Inhabited

/-- A place for generations of a chain: their common stem, in a table, jumped to from a parent chain. -/
structure Chain where
  table : String
  parent : String
  stem : String
deriving DecidableEq, Repr, Inhabited

/-- The whole wanted content of one chain. -/
structure RuleSet where
  chain : Chain
  rules : List Rule
deriving DecidableEq, Repr, Inhabited

/-- The chain in one line, for messages. -/
def Chain.render (chain : Chain) : String := s!"{chain.table}/{chain.parent}/{chain.stem}"

namespace Rule

/-- The tokens with one space between them. -/
def render (rule : Rule) : String := " ".intercalate rule.tokens

/-- The rule that jumps to a chain. -/
def jumpTo (chain : String) : Rule := ⟨["-j", chain]⟩

/-- The options that name the target of a rule. -/
def isTargetOption (token : String) : Bool :=
  token = "-j" || token = "--jump" || token = "-g" || token = "--goto"

/-- The token that follows the first option naming a target. -/
def targetOf : List String → Option String
  | [] => none
  | token :: rest => if isTargetOption token then rest.head? else targetOf rest

/-- What a rule jumps to, if it names a target. -/
def target? (rule : Rule) : Option String := targetOf rule.tokens

/-- The bridge that the containers of this host are attached to. -/
def localBridge : String := "cni-flannel0"

/-- The device that carries the overlay network with a given identifier. -/
def overlayDevice (vni : Nat) : String := s!"flannel.{vni}"

/-- Accepts the replies that arrive on a device. -/
def acceptReplies (device : String) : Rule :=
  ⟨["-i", device, "-m", "state", "--state", "ESTABLISHED,RELATED", "--jump", "ACCEPT"]⟩

/-- Rejects whatever a guard matches. -/
def rejectAll (guard : List String) : Rule := ⟨guard ++ ["--jump", "REJECT"]⟩

/-- Logs what a guard matches under a name, at a limited rate. -/
def log (guard : List String) (name : String) : Rule :=
  ⟨guard ++ ["-m", "limit", "--limit", "2/min", "--jump", "LOG", "--log-prefix", name]⟩

/-- Matches the traffic between the containers of this host. -/
def localGuard (subnet : String) : List String := ["-i", localBridge, "--source", subnet, "-d", subnet]

/-- Matches the traffic that arrives over the overlay network. -/
def remoteGuard (vni : Nat) : List String := ["-i", overlayDevice vni]

/-- Accepts replies between the containers of this host. -/
def acceptLocal : Rule := acceptReplies localBridge

/-- Logs local traffic that is about to be rejected. -/
def logLocal (subnet : String) : Rule := log (localGuard subnet) "REJECT_LOCAL:"

/-- Rejects local traffic. -/
def denyLocal (subnet : String) : Rule := rejectAll (localGuard subnet)

/-- Accepts replies that arrive over the overlay network. -/
def acceptRemote (vni : Nat) : Rule := acceptReplies (overlayDevice vni)

/-- Logs remote traffic that is about to be rejected. -/
def logRemote (vni : Nat) : Rule := log (remoteGuard vni) "REJECT_REMOTE:"

/-- Rejects remote traffic. -/
def denyRemote (vni : Nat) : Rule := rejectAll (remoteGuard vni)

end Rule

end OverlayHost
