import TorrentQuery.Text.Category

namespace TorrentQuery.Text

def wideText : String :=
  "4352+96 8986+2 9001+2 9193+4 9200+1 9203+1 9725+2 9748+2 9800+12 9855+1 9875+1 9889+1 9898+2
  9917+2 9924+2 9934+1 9940+1 9962+1 9970+2 9973+1 9978+1 9981+1 9989+1 9994+2 10024+1 10060+1
  10062+1 10067+3 10071+1 10133+3 10160+1 10175+1 11035+2 11088+1 11093+1 11904+26 11931+89
  12032+214 12272+12 12288+63 12353+86 12441+103 12549+43 12593+94 12688+84 12784+47 12832+40
  12880+7024 19968+22157 42128+55 43360+29 44032+11172 63744+512 65040+10 65072+35 65108+19
  65128+4 65281+96 65504+7 94176+5 94192+2 94208+6136 100352+1238 101632+9 110576+4 110581+7
  110589+2 110592+291 110898+1 110928+3 110933+1 110948+4 110960+396 126980+1 127183+1 127374+1
  127377+10 127488+3 127504+44 127552+9 127568+2 127584+6 127744+33 127789+9 127799+70 127870+22
  127904+43 127951+5 127968+17 127988+1 127992+71 128064+1 128066+187 128255+63 128331+4
  128336+24 128378+1 128405+2 128420+1 128507+85 128640+70 128716+1 128720+3 128725+3 128732+4
  128747+2 128756+9 128992+12 129008+1 129292+47 129340+10 129351+185 129648+13 129664+9
  129680+46 129727+7 129742+14 129760+9 129776+9 131072+65534 196608+65534"

def wideRuns : Array (Nat × Nat) := runsOfText wideText

def columnsOfChar (c : Char) : Nat :=
  if c.val < 128 then (if 32 ≤ c.val && c.val < 127 then 1 else 0)
  else if isExtender c || category c == .cf || category c == .cc then 0
  else if inRuns wideRuns c.toNat then 2
  else 1

def columns (s : String) : Nat := (s.toList.map columnsOfChar).foldl (· + ·) 0

def padTo (n : Nat) (s : String) : String :=
  s ++ String.ofList (List.replicate (n - columns s) ' ')

end TorrentQuery.Text
