/-
  KineticSdk.Security.Redact

  Secret redaction (`security/redact.py`): the ten patterns in their source
  order, `redact_secrets` on texts and `redact_value` on JSON values.
-/

import KineticSdk.Py.Regex

namespace KineticSdk
namespace Security

open Py Py.Regex

/-- `REDACTED`. -/
def redacted : PyStr := py "[REDACTED]"

-- ============================================================================
-- The patterns
-- ============================================================================

/-- `_KNOWN_TOKEN_RE`. -/
def knownTokenRe : Regex :=
  alts
    [cat [.wordB, alts [lit "ghp", lit "ghu", lit "gho", lit "ghs", lit "ghr"], lit "_",
      atLeast 20 (.chr asciiAlnum)],
     cat [lit "github_pat_", atLeast 20 (.chr fun x => asciiAlnum x || oneOf "_" x)],
     cat [.wordB, lit "sk-", atLeast 20 (.chr fun x => asciiAlnum x || oneOf "_-" x)],
     cat [.wordB, lit "AKIA", times 16 (.chr fun x => asciiUpper x || oneOf "0123456789" x), .wordB]]

/-- `api[_-]?key` under `(?i)`. -/
def apiKeyI : Regex := cat [litI "api", opt (.chr (oneOf "_-")), litI "key"]

/-- `\s*[:=]\s*`. -/
def assign : Regex := cat [.star (.chr isSpace), .chr (oneOf ":="), .star (.chr isSpace)]

/-- `['"]?`. -/
def optQuote : Regex := opt (.chr (oneOf "'\""))

/-- `_KEYWORD_TOKEN_RE`. -/
def keywordTokenRe : Regex :=
  cat [.wordB,
    .group 1 (alts [apiKeyI, litI "password", litI "passwd", litI "secret", litI "token", litI "key"]),
    .group 2 (alts [assign, plus (.chr isSpace)]),
    .group 3 optQuote,
    atLeast 20 (.chr fun x => asciiAlnum x || foldsToAscii x || oneOf "_-/+" x),
    .group 4 optQuote]

/-- `_BEARER_JWT_RE`. -/
def bearerJwtRe : Regex :=
  let part : Regex := .chr fun x => asciiAlnum x || oneOf "_-" x
  alts
    [cat [.wordB, lit "Bearer", plus (.chr isSpace),
      atLeast 20 (.chr fun x => asciiAlnum x || oneOf "_-." x)],
     cat [.wordB, lit "eyJ", .star part, lit ".eyJ", .star part, lit ".", plus part, .wordB]]

/-- `_SLACK_TOKEN_RE`. -/
def slackTokenRe : Regex :=
  cat [.wordB, lit "xox", .chr (oneOf "bpaors"), lit "-",
    atLeast 10 (.chr fun x => asciiAlnum x || oneOf "-" x)]

/-- `_GOOGLE_API_KEY_RE`. -/
def googleApiKeyRe : Regex :=
  cat [.wordB, lit "AIza", times 35 (.chr fun x => asciiAlnum x || oneOf "_-" x), .wordB]

/-- `_PEM_KEY_RE`. -/
def pemKeyRe : Regex :=
  let label : Regex := .star (.chr fun x => asciiUpper x || oneOf " " x)
  cat [lit "-----BEGIN ", label, lit "PRIVATE KEY-----", .star (.chr fun x => !oneOf "-" x),
    opt (cat [lit "-----END ", label, lit "PRIVATE KEY-----"])]

/-- `_URL_CREDENTIAL_RE`. -/
def urlCredentialRe : Regex :=
  cat [.group 1 (cat [lit "://", plus (.chr fun x => !(oneOf ":/@" x || isSpace x)), lit ":"]),
    .group 2 (plus (.chr fun x => !(oneOf "@/" x || isSpace x))), .group 3 (lit "@")]

/-- `_ENV_SECRET_RE`. -/
def envSecretRe : Regex :=
  cat [.wordB,
    .group 1 (cat [opt (alts [litI "AWS", litI "GCP", litI "AZURE"]), opt (lit "_"),
      alts [litI "SECRET", litI "ACCESS_KEY", litI "PRIVATE_KEY", litI "TOKEN", litI "PASSWORD"],
      .star (.chr fun x => asciiUpper x || (97 ≤ x && x ≤ 122) || foldsToAscii x || oneOf "_" x)]),
    .star (.chr isSpace), lit "=", .star (.chr isSpace), .group 2 (plus (.chr fun x => !isSpace x))]

/-- `_SHORT_ASSIGNED_SECRET_RE`. -/
def shortAssignedSecretRe : Regex :=
  cat [.wordB, .group 1 (alts [litI "password", litI "passwd", litI "secret", apiKeyI]),
    .group 2 assign, .group 3 optQuote,
    .group 4 (between 4 19 (.chr fun x => !(isSpace x || oneOf "'\"" x))), .group 5 optQuote]

/-- A quoted field name of `_JSON_SECRET_VALUE_RE`. -/
def jsonSecretName (quote : String) : Regex :=
  let part : Regex := .star (.chr fun x => asciiAlnum x || foldsToAscii x || oneOf "_-" x)
  cat [lit quote, part,
    alts [litI "password", litI "passwd", litI "secret", litI "token", litI "api_key",
      litI "apikey", litI "authorization", litI "private_key"],
    part, lit quote]

/-- A quoted string with backslash escapes. -/
def quotedString (quote : String) : Regex :=
  cat [lit quote,
    .star (.alt (.seq (lit "\\") (.chr (· != 10)))
      (.chr fun x => !(oneOf quote x || oneOf "\\" x))),
    lit quote]

/-- `_JSON_SECRET_VALUE_RE`; group 1 is `prefix`, group 2 is `value`. -/
def jsonSecretValueRe : Regex :=
  cat [.group 1 (cat [alts [jsonSecretName "\"", jsonSecretName "'"], .star (.chr isSpace), lit ":",
      .star (.chr isSpace)]),
    .group 2 (alts [quotedString "\"", quotedString "'"])]

/-- `_SENSITIVE_KEY_PARTS`. -/
def sensitiveKeyParts : List PyStr :=
  [py "password", py "passwd", py "secret", py "token", py "api_key", py "apikey",
   py "authorization", py "private_key"]

-- ============================================================================
-- Texts
-- ============================================================================

/-- `redact_secrets`. -/
def redactSecrets (text : PyStr) : PyStr :=
  let text := pemKeyRe.sub (fun _ => redacted) text
  let text := bearerJwtRe.sub (fun _ => redacted) text
  let text := slackTokenRe.sub (fun _ => redacted) text
  let text := googleApiKeyRe.sub (fun _ => redacted) text
  let text := knownTokenRe.sub (fun _ => redacted) text
  let text := urlCredentialRe.sub (fun m => m.group 1 ++ redacted ++ m.group 3) text
  let text := keywordTokenRe.sub
    (fun m => m.group 1 ++ m.group 2 ++ m.group 3 ++ redacted ++ m.group 4) text
  let text := envSecretRe.sub (fun m => m.group 1 ++ py "=" ++ redacted) text
  let text := shortAssignedSecretRe.sub
    (fun m => m.group 1 ++ m.group 2 ++ m.group 3 ++ redacted ++ m.group 5) text
  jsonSecretValueRe.sub
    (fun m => m.group 1 ++ (m.group 2).take 1 ++ redacted ++ (m.group 2).take 1) text

example : redactSecrets (py "flash") = py "flash" := by decide +kernel

example : redactSecrets (py "curl -d password=hunter22 x") = py "curl -d password=[REDACTED] x" := by
  decide +kernel

-- ============================================================================
-- JSON values
-- ============================================================================

/-- `k.lower()`, exact on every character whose lower case has an ASCII part. -/
def lowerKey (k : PyStr) : PyStr :=
  k.flatMap fun c =>
    if 65 ≤ c && c ≤ 90 then [c + 32]
    else if c = 0x212A then [107]
    else if c = 0x130 then [105, 0x307]
    else [c]

/-- The key names a secret. -/
def sensitiveKey (k : PyStr) : Bool :=
  sensitiveKeyParts.any fun part => (lowerKey k).tails.any (startsWith part)

mutual

/-- `redact_value`. -/
def redactValue : Json → Json
  | .str s => .str (redactSecrets s)
  | .obj kvs => .obj (redactFields kvs)
  | .arr xs => .arr (redactList xs)
  | v => v

/-- `redact_value` on the items of a dict: a string under a sensitive key is
    redacted in full. -/
def redactFields : Dict → Dict
  | [] => []
  | (k, .str s) :: kvs =>
      (k, if sensitiveKey k then .str redacted else .str (redactSecrets s)) :: redactFields kvs
  | (k, v) :: kvs => (k, redactValue v) :: redactFields kvs

/-- `redact_value` on the elements of a list. -/
def redactList : List Json → List Json
  | [] => []
  | x :: xs => redactValue x :: redactList xs

end

end Security
end KineticSdk
