namespace TorrentQuery.Text

def joinPath (directory path : String) : String :=
  if path.toList.head? == some '/' then path
  else if directory.isEmpty || directory.toList.getLast? == some '/' then directory ++ path
  else directory ++ "/" ++ path

end TorrentQuery.Text
