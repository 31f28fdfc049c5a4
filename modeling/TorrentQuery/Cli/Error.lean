import TorrentQuery.Query.Error
import TorrentQuery.Text.Split

namespace TorrentQuery.Cli

open Text

inductive SetupError where
  | settings (path : String) (causes : List String)
  | connection (causes : List String)
  | filter (e : QueryError)
  deriving Repr

namespace SetupError

def message : SetupError → String
  | .settings path causes =>
    "Failed to load configuration from " ++ path ++ ": " ++ joinWith ": " causes ++
      "\n\nPossible fixes:\n  - Check the file is valid TOML\n" ++
      "  - Use --config to specify a different file\n  - Remove the file to run with defaults"
  | .connection causes =>
    "Failed to connect to rTorrent: " ++ joinWith ": " causes ++
      "\n\nPossible fixes:\n  - Ensure rTorrent is running with an SCGI port or socket\n" ++
      "  - Use --scgi-url to specify the endpoint, e.g. localhost:5000 or " ++
      "~/rtorrent/.scgi_local\n  - Set scgi_url in the configuration file"
  | .filter e =>
    "Invalid filter: " ++ e.message ++ "\n\nFilter conditions look like name=*linux*, " ++
      "ratio>1 or size<1G, combined with OR, NOT and [ ]"

def causes : SetupError → List String
  | .settings _ causes => causes
  | .connection causes => causes
  | .filter e => [e.message]

end SetupError

end TorrentQuery.Cli
