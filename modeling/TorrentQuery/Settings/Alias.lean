import TorrentQuery.Settings.Basic

namespace TorrentQuery.Settings

open Text

/-- Scheme and host, with the port, of a URL; either may be empty. -/
def splitUrl (url : List Char) : List Char × List Char :=
  let (scheme, rest) := (splitOnce [':', '/', '/'] url).getD ([], url)
  (scheme, rest.takeWhile fun c => c != '/' && c != '?' && c != '#')

def domain (host : List Char) : String :=
  let labels := (splitWhere (· == '.') (host.takeWhile (· != ':'))).map String.ofList
  joinWith "." (labels.drop (labels.length - 2))

def findAlias (s : Settings) (suits : String → Bool) : Option String :=
  (s.aliases.find? (·.2.any suits)).map (·.1)

def serverAlias? (s : Settings) (scheme host : List Char) : Option String :=
  if host.isEmpty then none
  else s.findAlias fun t => (scheme ++ [':', '/', '/'] ++ host ++ ['/']).isPrefixOf t.toList

/-- The name that a tracker goes by, from its announce URL. An alias goes by itself. -/
def trackerName (s : Settings) (url : String) : String :=
  if s.aliases.any (·.1 = url) then url
  else match s.findAlias (· = url) with
    | some name => name
    | none =>
      let (scheme, host) := splitUrl url.toList
      match s.serverAlias? scheme host with
      | some name => name
      | none => (s.findAlias (· = domain host)).getD (domain host)

end TorrentQuery.Settings
