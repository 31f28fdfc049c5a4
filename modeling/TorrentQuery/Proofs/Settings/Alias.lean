import Mathlib.Data.List.TakeWhile
import TorrentQuery.Proofs.Text.Split
import TorrentQuery.Settings.Alias

namespace TorrentQuery.Settings

open Text

/-- A text without the characters at which a URL is cut apart. -/
def Bare (s : List Char) : Prop := ∀ c ∈ s, c ≠ ':' ∧ c ≠ '/' ∧ c ≠ '?' ∧ c ≠ '#'

def lastLabels (host : List Char) : List (List Char) :=
  let labels := splitWhere (· == '.') (host.takeWhile (· != ':'))
  labels.drop (labels.length - 2)

section Domain

variable {host : List Char}

theorem toList_domain (host : List Char) :
    (domain host).toList = ['.'].intercalate (lastLabels host) := by
  have hid : String.toList ∘ String.ofList = id := by
    funext s
    exact String.toList_ofList
  rw [domain, joinWith, String.toList_intercalate, List.map_drop, List.map_map, List.length_map,
    hid, List.map_id]
  rfl

theorem lastLabels_ne_nil (host : List Char) : lastLabels host ≠ [] := by
  have hpos := List.length_pos_iff.2
    (splitWhere_ne_nil (p := (· == '.')) (host.takeWhile (· != ':')))
  rw [lastLabels, ne_eq, List.drop_eq_nil_iff]
  omega

theorem length_lastLabels (host : List Char) : (lastLabels host).length ≤ 2 := by
  rw [lastLabels, List.length_drop]
  omega

theorem of_mem_lastLabels {label : List Char} (h : label ∈ lastLabels host) :
    ∀ c ∈ label, c ∈ host ∧ c ≠ '.' ∧ c ≠ ':' := by
  intro c hc
  obtain ⟨hmem, hdot⟩ := of_mem_splitWhere (List.mem_of_mem_drop h) c hc
  refine ⟨(List.takeWhile_sublist _).subset hmem, by simpa using hdot, ?_⟩
  simpa using List.mem_takeWhile_imp hmem

theorem of_mem_domain {c : Char} (h : c ∈ (domain host).toList) : c = '.' ∨ c ∈ host ∧ c ≠ ':' := by
  rw [toList_domain] at h
  rcases mem_intercalate h with rfl | ⟨label, hlabel, hc⟩
  · exact .inl rfl
  · obtain ⟨hmem, -, hcolon⟩ := of_mem_lastLabels hlabel c hc
    exact .inr ⟨hmem, hcolon⟩

/-- A domain has no more than two labels, and no port. -/
theorem domain_domain (host : List Char) : domain (domain host).toList = domain host := by
  have hport : (domain host).toList.takeWhile (· != ':') = (domain host).toList := by
    rw [List.takeWhile_eq_self_iff]
    intro c hc
    rcases of_mem_domain hc with rfl | ⟨-, hcolon⟩
    · rfl
    · simpa using hcolon
  have hlabels : splitWhere (· == '.') (domain host).toList = lastLabels host := by
    rw [toList_domain]
    apply splitWhere_intercalate (lastLabels_ne_nil host)
    intro label hlabel hdot
    exact (of_mem_lastLabels hlabel _ hdot).2.1 rfl
  have hsame : lastLabels (domain host).toList = lastLabels host := by
    have hlength := length_lastLabels host
    rw [lastLabels, hport, hlabels, show (lastLabels host).length - 2 = 0 by omega, List.drop_zero]
  rw [← String.toList_inj, toList_domain (domain host).toList, hsame, toList_domain]

end Domain

section Url

variable {url : List Char}

theorem bare_domain (url : List Char) : Bare (domain (splitUrl url).2).toList := by
  intro c hc
  rcases of_mem_domain hc with rfl | ⟨hmem, hcolon⟩
  · decide
  · have hstop := List.mem_takeWhile_imp hmem
    rw [Bool.and_eq_true, Bool.and_eq_true, bne_iff_ne, bne_iff_ne, bne_iff_ne] at hstop
    exact ⟨hcolon, hstop.1.1, hstop.1.2, hstop.2⟩

/-- A text that is not cut apart is all host. -/
theorem splitUrl_of_bare (h : Bare url) : splitUrl url = ([], url) := by
  have hscheme : splitOnce [':', '/', '/'] url = none := by
    apply splitOnce_eq_none
    rintro ⟨before, after, rfl⟩
    exact (h ':' (by simp)).1 rfl
  rw [splitUrl, hscheme]
  dsimp only [Option.getD_none]
  rw [List.takeWhile_eq_self_iff.2]
  intro c hc
  simp [h c hc]

end Url

section Names

variable {s : Settings} {url : String}

/-- No text of an alias starts where its scheme should end. -/
def Schemed (s : Settings) : Prop :=
  ∀ entry ∈ s.aliases, ∀ text ∈ entry.2, ¬[':', '/', '/'] <+: text.toList

def names (s : Settings) : List String := s.aliases.map Prod.fst

theorem any_iff {name : String} : s.aliases.any (·.1 = name) = true ↔ name ∈ s.names := by
  simp [names]

theorem mem_names_of_findAlias {suits : String → Bool} {name : String}
    (h : s.findAlias suits = some name) : name ∈ s.names := by
  obtain ⟨entry, hfind, rfl⟩ := Option.map_eq_some_iff.1 h
  exact List.mem_map_of_mem (List.mem_of_find?_eq_some hfind)

theorem findAlias_of_serverAlias? {scheme host : List Char} {name : String}
    (h : s.serverAlias? scheme host = some name) : ∃ suits, s.findAlias suits = some name := by
  unfold serverAlias? at h
  by_cases hempty : host.isEmpty = true
  · rw [if_pos hempty] at h
    cases h
  · rw [if_neg hempty] at h
    exact ⟨_, h⟩

theorem serverAlias?_of_schemed (h : s.Schemed) (host : List Char) :
    s.serverAlias? [] host = none := by
  rw [serverAlias?]
  split
  · rfl
  · rw [findAlias, Option.map_eq_none_iff, List.find?_eq_none]
    intro entry hentry hany
    obtain ⟨text, htext, hprefix⟩ := List.any_eq_true.1 hany
    apply h entry hentry text htext
    have hstart := List.prefix_append [':', '/', '/'] (host ++ ['/'])
    rw [← List.append_assoc] at hstart
    exact hstart.trans (List.isPrefixOf_iff_prefix.1 hprefix)

/-- The name of a tracker is that of an alias, or else a domain that stands under no alias. -/
theorem trackerName_cases (s : Settings) (url : String) :
    s.trackerName url ∈ s.names ∨
      ∃ host, s.trackerName url = domain host ∧ Bare (domain host).toList ∧
        s.findAlias (· = domain host) = none := by
  rw [trackerName]
  by_cases hname : s.aliases.any (·.1 = url) = true
  · rw [if_pos hname]
    exact .inl (any_iff.1 hname)
  rw [if_neg hname]
  cases hexact : s.findAlias (· = url) with
  | some name => exact .inl (mem_names_of_findAlias hexact)
  | none =>
    dsimp only
    cases hserver : s.serverAlias? (splitUrl url.toList).1 (splitUrl url.toList).2 with
    | some name =>
      obtain ⟨suits, hfind⟩ := findAlias_of_serverAlias? hserver
      exact .inl (mem_names_of_findAlias hfind)
    | none =>
      cases hdomain : s.findAlias (· = domain (splitUrl url.toList).2) with
      | some name => exact .inl (mem_names_of_findAlias hdomain)
      | none => exact .inr ⟨_, rfl, bare_domain _, hdomain⟩

/-- The name that a tracker goes by goes by itself. -/
theorem trackerName_idempotent (h : s.Schemed) (url : String) :
    s.trackerName (s.trackerName url) = s.trackerName url := by
  have hself {name : String} (hname : name ∈ s.names) : s.trackerName name = name := by
    rw [trackerName, if_pos (any_iff.2 hname)]
  rcases trackerName_cases s url with hname | ⟨host, hhost, hbare, hnone⟩
  · exact hself hname
  · rw [hhost]
    by_cases hname : domain host ∈ s.names
    · exact hself hname
    · have hserver := serverAlias?_of_schemed h (domain host).toList
      rw [trackerName, if_neg fun hany => hname (any_iff.1 hany), hnone]
      dsimp only
      rw [splitUrl_of_bare hbare]
      dsimp only
      rw [hserver, domain_domain, hnone]
      rfl

theorem trackerName_idempotent_domain :
    let s : Settings := { aliases := [("Server", ["https://open.example.net/a/announce"]),
      ("Domain", ["linuxtracker.org"])] }
    s.Schemed ∧ s.trackerName "http://ipv6.linuxtracker.org:2710/announce" = "Domain" ∧
    s.trackerName "udp://tracker.opentrackr.org:1337/announce" = "opentrackr.org" ∧
    s.trackerName "opentrackr.org" = "opentrackr.org" := by
  intro s
  have hschemed : s.Schemed := by
    unfold Schemed
    decide
  have hname : s.trackerName "udp://tracker.opentrackr.org:1337/announce" = "opentrackr.org" := by
    decide +kernel
  refine ⟨hschemed, by decide +kernel, hname, ?_⟩
  have hagain := trackerName_idempotent hschemed "udp://tracker.opentrackr.org:1337/announce"
  rwa [hname] at hagain

/-- Under an alias that starts where a scheme should end, a domain has a second name. -/
example : let s : Settings := { aliases := [("X", ["://foo.org/"])] }
    s.trackerName "http://a.foo.org/" = "foo.org" ∧ s.trackerName "foo.org" = "X" := by
  decide +kernel

end Names

end TorrentQuery.Settings
