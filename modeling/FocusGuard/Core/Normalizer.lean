import FocusGuard.Runtime

/-!
# Domain normalization

`focusguard/core/normalizer.py`, with the part of `urllib.parse.urlparse` that it uses.
-/

namespace FocusGuard

variable (rt : Runtime)

/-- Companion domains of the platforms that have some. -/
def serviceCompanions : List (Text × List Text) := [
  ("youtube.com", ["googlevideo.com", "ytimg.com", "youtube-nocookie.com", "youtu.be",
    "yt3.ggpht.com"]),
  ("facebook.com", ["fbcdn.net", "fbsbx.com", "fb.com", "messenger.com"]),
  ("instagram.com", ["cdninstagram.com", "ig.me"]),
  ("tiktok.com", ["tiktokcdn.com", "byteoversea.com", "ibytedtos.com", "musical.ly"]),
  ("reddit.com", ["redd.it", "redditmedia.com", "redditstatic.com"]),
  ("twitter.com", ["x.com", "twimg.com", "t.co"]),
  ("x.com", ["twitter.com", "twimg.com", "t.co"]),
  ("netflix.com", ["nflxext.com", "nflximg.net", "nflxvideo.net"]),
  ("twitch.tv", ["ttvnw.net", "jtvnw.net"]),
  ("xbox.com", ["xboxlive.com", "xboxservices.com", "gamepass.com", "xboxab.com",
    "xboxgamestudio.com"]),
  ("xboxlive.com", ["xbox.com", "xboxservices.com", "gamepass.com", "xboxab.com"]),
  ("playstation.com", ["playstation.net", "sonyentertainmentnetwork.com",
    "playstationnetwork.com", "psn.net", "sie.com"]),
  ("playstation.net", ["playstation.com", "sonyentertainmentnetwork.com",
    "playstationnetwork.com", "psn.net"]),
  ("play.google.com", ["android.clients.google.com", "playgames.google.com",
    "market.android.com", "play-lh.googleusercontent.com"]),
  ("steampowered.com", ["steamcommunity.com", "steamgames.com", "steamstatic.com",
    "steamcontent.com", "steam-chat.com"]),
  ("steamcommunity.com", ["steampowered.com", "steamgames.com", "steamstatic.com",
    "steamcontent.com"]),
  ("discord.com", ["discord.gg", "discordapp.com", "discordapp.net", "discord.media"]),
  ("discord.gg", ["discord.com", "discordapp.com", "discordapp.net", "discord.media"]),
  ("roblox.com", ["rbxcdn.com", "robloxlabs.com", "rbx.com"]),
  ("epicgames.com", ["fortnite.com", "epicgames.net", "unrealengine.com"]),
  ("fortnite.com", ["epicgames.com", "epicgames.net", "unrealengine.com"]),
  ("nintendo.com", ["nintendo.net", "nintendonetwork.net", "nintendo-europe.com"]),
  ("spotify.com", ["spoti.fi", "scdn.co", "spotifycdn.com"])]

/-! ## `urlparse` -/

def isSchemeChar (c : Char) : Bool :=
  Text.isAsciiChar c ∧ (c.isAlphanum ∨ c ∈ ['+', '-', '.'])

/-- The schemes whose last path segment may carry parameters. -/
def usesParams : List Text := [[], "ftp", "hdl", "prospero", "http", "https", "shttp", "rtsp",
  "rtsps", "rtspu", "sip", "sips", "mms", "sftp", "tel"]

/-- The scheme in front of the first colon, if there is one. -/
def splitScheme (url : Text) : Text × Text :=
  let scheme := url.takeWhile (· ≠ ':')
  match url.dropWhile (· ≠ ':') with
  | _ :: rest =>
    if (scheme.head?.any fun c => Text.isAsciiChar c ∧ c.isAlpha) ∧ scheme.all isSchemeChar then
      (rt.lower scheme, rest)
    else ([], url)
  | [] => ([], url)

/-- `_splitparams(url)[0]`: what precedes the parameters of the last path segment. -/
def stripParams (url : Text) : Text :=
  let dir := url.rdropWhile (· ≠ '/')
  let last := url.rtakeWhile (· ≠ '/')
  dir ++ last.takeWhile (· ≠ ';')

/-- `urlparse(url)`, up to its `netloc` and `path`; `none` is a `ValueError`. -/
def urlparse (url : Text) : Option (Text × Text) :=
  let url := (url.dropWhile fun c => c.toNat ≤ 32).filter fun c => c ∉ ['\t', '\r', '\n']
  let (scheme, url) := splitScheme rt url
  let (netloc, url) :=
    if ("//" : Text) <+: url then
      ((url.drop 2).takeWhile (· ∉ ['/', '?', '#']), (url.drop 2).dropWhile (· ∉ ['/', '?', '#']))
    else ([], url)
  if ('[' ∈ netloc ∧ ']' ∉ netloc) ∨ (']' ∈ netloc ∧ '[' ∉ netloc) then none
  else if ('[' ∈ netloc ∨ ¬ Text.isAscii netloc) ∧ rt.rejectsNetloc netloc then none
  else
    let path := (url.takeWhile (· ≠ '#')).takeWhile (· ≠ '?')
    some (netloc, if scheme ∈ usesParams then stripParams path else path)

/-! ## `normalize_domain` -/

/-- The four characters that `strip(". \t\r\n")` removes along with the dot. -/
def isDomainBlank (c : Char) : Bool := c ∈ ['.', ' ', '\t', '\r', '\n']

def isLabelEnd (c : Char) : Bool :=
  (97 ≤ c.toNat ∧ c.toNat ≤ 122) ∨ (48 ≤ c.toNat ∧ c.toNat ≤ 57)

def isLabelChar (c : Char) : Bool := isLabelEnd c ∨ c = '-'

/-- `LABEL_REGEX.match(label)` once the final newline that `$` tolerates is taken off. -/
def labelBody (label : Text) : Bool :=
  label.all isLabelChar ∧ label.head?.any isLabelEnd ∧ label.getLast?.any isLabelEnd ∧
    label.length ≤ 63

/-- `LABEL_REGEX.match(label)`: `$` also matches before a newline at the very end. -/
def matchesLabel (label : Text) : Bool :=
  labelBody label ∨ (label.getLast? = some '\n' ∧ labelBody label.dropLast)

def quoted (pre t post : Text) : Text := pre ++ t ++ post

def validateLabels (domain : Text) : List Text → Except PyError Unit
  | [] => .ok ()
  | label :: rest =>
    if label = [] then
      .error (.invalidDomain (quoted "Domain '" domain "' contains empty label."))
    else if label.length > 63 then
      .error (.invalidDomain (quoted "Domain label '" label "' exceeds 63 characters."))
    else if ¬ matchesLabel label then
      .error (.invalidDomain (quoted "Invalid character in domain label '" label
        "'. Allowed: alphanumeric and hyphen (cannot begin or end with hyphen)."))
    else validateLabels domain rest

def validateDomain (domain : Text) : Except PyError Unit :=
  let labels := domain.splitOn '.'
  if domain.length > 253 then
    .error (.invalidDomain (quoted "Domain '" domain
      "' exceeds maximum length of 253 characters."))
  else if labels.length < 2 then
    .error (.invalidDomain (quoted "Domain '" domain
      "' must contain at least one dot (TLD required, e.g. .com, .org)."))
  else if labels.getLast?.any rt.isdigit then
    .error (.invalidDomain (quoted "TLD in '" domain
      "' cannot be purely numeric (IP addresses not allowed as domain rules)."))
  else validateLabels domain labels

/-- The host part of a URL or of a text with a path; a `ValueError` of `urlparse` gets out. -/
def extractHost (candidate : Text) : Except PyError Text :=
  if ("://" : Text) <:+: candidate then
    match urlparse rt candidate with
    | none => .error (.valueError "Invalid IPv6 URL")
    | some (netloc, path) => .ok (if netloc ≠ [] then netloc else path)
  else .ok (candidate.takeWhile (· ≠ '/'))

/-- Port, query, fragment and user info cut off, then blanks and dots at both ends. -/
def cutHost (candidate : Text) : Text :=
  Text.stripBy isDomainBlank ((((candidate.takeWhile (· ≠ ':')).takeWhile (· ≠ '?')).takeWhile
    (· ≠ '#')).takeWhile (· ≠ '@'))

/-- `*.` in front of a wildcard is dropped. -/
def dropWildcard (candidate : Text) : Text :=
  if ("*." : Text) <+: candidate then candidate.drop 2 else candidate

def normalizeText (rawInput : Text) : Except PyError Text :=
  if rawInput = [] then .error (.invalidDomain "Domain input cannot be empty.")
  else
    match extractHost rt (dropWildcard (rt.lower (Text.strip rawInput))) with
    | .error e => .error e
    | .ok host =>
      let candidate := cutHost host
      if candidate = [] then
        .error (.invalidDomain "Extracted domain is empty after normalization.")
      else
        match rt.idna candidate with
        | none =>
          .error (.invalidDomain (("Invalid domain encoding: " : Text) ++
            rt.builtinMessage .unicodeError))
        | some candidate =>
          match validateDomain rt candidate with
          | .error e => .error e
          | .ok () => .ok candidate

/-- `normalize_domain(raw_input)`, for any value a caller may pass. -/
def normalizeDomain (rawInput : Json) : Except PyError Text :=
  match rawInput with
  | .str t => normalizeText rt t
  | _ => .error (.invalidDomain "Domain input cannot be empty.")

def getCompanionDomains (domain : Text) : List Text :=
  let canonical := rt.lower domain
  let canonical := if ("www." : Text) <+: canonical then canonical.drop 4 else canonical
  match serviceCompanions.find? fun entry => entry.1 = canonical with
  | some entry => entry.2
  | none => []

end FocusGuard
