import SimpleCdn.Domain.Validate
import SimpleCdn.Lib.Regexp.Tree

/-!
# Security patterns

The pattern of a security policy is compiled after every `(?:` of its text has been made a `(`, while
nginx is given the pattern as it is.  Unless it is one of the built-in texts, the tree of the
rewritten text must repeat nothing but a string or a class, and make few choices.
-/

namespace SimpleCdn

open Regexp

def defaultSecurityPolicyPattern : String :=
  "(?i)^/+(?:[^/]+/)*(?:\\.env(?:[._~-][A-Za-z0-9][A-Za-z0-9._~-]*)?|\\.git(?:config|-crede" ++
    "ntials)?(?:[._~-](?:old|bak|backup|save|txt|new|swp|orig|copy|disabled|zip|gz|tgz|tar|7z" ++
    "|rar|[0-9]+))?|\\.(?:aws|azure|docker|svn|hg|ssh|kube|gnupg|terraform)|\\.ht(?:access|pa" ++
    "sswd)(?:[._~-](?:old|bak|backup|save|txt|new|swp|orig|copy|disabled|zip|gz|tgz|tar|7z|ra" ++
    "r|[0-9]+))?|\\.DS_Store|\\.(?:npmrc|pypirc|netrc)|\\.(?:bash|zsh|mysql|psql|rediscli|pyt" ++
    "hon)_history|id_(?:rsa|dsa|ecdsa|ed25519)(?:[._~-](?:old|bak|backup|save|txt|new|swp|ori" ++
    "g|copy|disabled|zip|gz|tgz|tar|7z|rar|[0-9]+))?|terraform\\.tfstate(?:\\.backup)?|wp-con" ++
    "fig\\.php(?:[._~-](?:old|bak|backup|save|txt|new|swp|orig|copy|disabled|zip|gz|tgz|tar|7" ++
    "z|rar|[0-9]+))?)(?:/|$)"

def defaultPHPSecurityPolicyPattern : String :=
  "(?i)^/+(?:[^/]+/)*(?:php[-_]?info|phpversion|phptest|pinfo|webshell|shell|cmd|c99|r57|ws" ++
    "o|b374k|alfa|xleet|backdoor|leftdao|queryversion)\\.(?:php(?:[0-9]+)?|phtml|phar)(?:[._~" ++
    "-](?:old|bak|backup|save|txt|new|swp|jpg|jpeg|png|gif|zip|gz|tgz|tar|7z|rar))?(?:/|$)"

def isBuiltinSecurityPolicyPattern (pattern : String) : Bool :=
  pattern = defaultSecurityPolicyPattern || pattern = defaultPHPSecurityPolicyPattern

/-- `validSecurityPatternDollars`; `escaped` when an odd number of backslashes stands before. -/
def validDollars : Bool → List Char → Bool
  | _, [] => true
  | escaped, c :: cs =>
    if c = '$' then !escaped && cs.head?.all (fun d => d = '|' || d = ')') && validDollars false cs
    else validDollars (c = '\\' && !escaped) cs

def validSecurityPatternDollars (pattern : List Char) : Bool :=
  validDollars false pattern

/-! ### Compiling a pattern -/

/-- The beginning of a group that does not capture. -/
def groupStart : List Char := ['(', '?', ':']

/-- The text that is compiled and checked. -/
def capturingText (pattern : List Char) : List Char :=
  Text.replaceAll groupStart ['('] pattern

/-- The names that the tables know. -/
def Regexp.Tables.known (tables : Tables) (name : List Char) : Bool :=
  (tables.property name).isSome

def compileSecurityPattern (tables : Tables) (pattern : List Char) : Option Expr :=
  parse tables.known (capturingText pattern)

/-! ### Backtracking -/

def safeSecurityRepeatOperand : Regexp.Node → Bool
  | .capture sub => safeSecurityRepeatOperand sub
  | .literal _ _ => true
  | .charClass _ => true
  | .anyCharNotNL => true
  | .anyChar => true
  | _ => false

/-- The operators that repeat: all but the question mark. -/
def Regexp.RepeatOp.repeats : RepeatOp → Bool
  | .quest => false
  | _ => true

mutual

def hasUnsafeSecurityRepetition : Regexp.Node → Bool
  | .repeated op _ sub =>
    (op.repeats && !safeSecurityRepeatOperand sub) || hasUnsafeSecurityRepetition sub
  | .capture sub => hasUnsafeSecurityRepetition sub
  | .concat subs => anyUnsafeSecurityRepetition subs
  | .alternate subs => anyUnsafeSecurityRepetition subs
  | _ => false

def anyUnsafeSecurityRepetition : List Regexp.Node → Bool
  | [] => false
  | sub :: subs => hasUnsafeSecurityRepetition sub || anyUnsafeSecurityRepetition subs

end

mutual

def securityBacktrackingChoices : Regexp.Node → ℕ
  | .repeated _ _ sub => 1 + securityBacktrackingChoices sub
  | .capture sub => securityBacktrackingChoices sub
  | .concat subs => allBacktrackingChoices subs
  | .alternate subs => subs.length - 1 + allBacktrackingChoices subs
  | _ => 0

def allBacktrackingChoices : List Regexp.Node → ℕ
  | [] => 0
  | sub :: subs => securityBacktrackingChoices sub + allBacktrackingChoices subs

end

/-- The tree of the rewritten text. -/
def securityTree (tables : Tables) (pattern : List Char) : Option Regexp.Node :=
  (compileSecurityPattern tables pattern).map (Expr.tree tables pattern.length)

/-! ### Validation -/

/-- The characters of a text are looked at one after the other. -/
local instance (priority := 2000) decidableForallChar (p : Char → Prop) [DecidablePred p]
    (text : List Char) : Decidable (∀ c ∈ text, p c) :=
  List.decidableBAll p text

def normalizeSecurityPolicy (tables : Tables) (policy : SecurityPolicy) :
    Except String SecurityPolicy := do
  let name := Text.trimSpace policy.name
  let pattern := Text.trimSpace policy.pattern
  require (name ≠ "" ∧ Text.byteLength name ≤ 80) "security policy name must be 1-80 characters"
  require (pattern ≠ "" ∧ Text.byteLength pattern ≤ 2048 ∧
      ∀ c ∈ pattern.toList, c ≠ '\x00' ∧ c ≠ '\r' ∧ c ≠ '\n')
    "security policy pattern must be a single line of at most 2048 characters"
  require (validSecurityPatternDollars pattern.toList = true)
    "security policy dollar signs may only be unescaped end anchors"
  require ((compileSecurityPattern tables pattern.toList).isSome = true)
    "security policy pattern is not in the supported regular expression subset"
  require (isBuiltinSecurityPolicyPattern pattern = true ∨
      (securityTree tables pattern.toList).any (fun tree =>
        !hasUnsafeSecurityRepetition tree && securityBacktrackingChoices tree ≤ 16) = true)
    "security policy pattern exceeds the safe backtracking subset"
  require (1 ≤ policy.priority ∧ policy.priority ≤ 10000)
    "security policy priority must be between 1 and 10000"
  let policy := { policy with name := name, pattern := pattern }
  match policy.action with
  | .block => return { policy with banDurationSeconds := 0 }
  | .ban =>
    require (validSecurityBanDuration policy.banDurationSeconds = true)
      "security policy ban duration is not supported"
    return policy

end SimpleCdn
