import TaxStamp.Errors
import TaxStamp.Lib.IpNetworks

/-!
# Trusted proxies

The proxy networks are configured as one comma-separated text. The settings check and normalise it with host
bits allowed; the middleware reads the normalised entries again and refuses host bits. An accepted
configuration works as written exactly when no entry has host bits set.
-/

namespace TaxStamp

open Lib

/-! ### Comma-separated texts -/

/-- The stripped parts between commas; blank ones are dropped. -/
def commaSeparated (value : List Char) : List (List Char) :=
  ((value.splitOn ',').map strip).filter fun part => !part.isEmpty

/-- Stripping keeps a prefix of what the start loses no more of. -/
theorem strip_initial (text : List Char) : strip text <+: text.dropWhile isPySpace := List.rdropWhile_prefix _ _

/-- A stripped text contains nothing new. -/
theorem mem_of_mem_strip {text : List Char} {c : Char} (h : c ∈ strip text) : c ∈ text :=
  (List.dropWhile_sublist _).subset ((strip_initial text).subset h)

/-- A stripped text is left as it is. -/
theorem strip_strip (text : List Char) : strip (strip text) = strip text := by
  have hstart : (strip text).dropWhile isPySpace = strip text := by
    rw [List.dropWhile_eq_self_iff]
    intro hlength
    have hdropped := List.dropWhile_idempotent (p := isPySpace) (l := text)
    rw [List.dropWhile_eq_self_iff] at hdropped
    have hlonger := hlength.trans_le (strip_initial text).length_le
    rw [(strip_initial text).getElem hlength]
    exact hdropped hlonger
  rw [strip, hstart]
  exact List.rdropWhile_idempotent _ _

/-- No part of a split text contains the separator. -/
theorem not_mem_of_mem_splitOn {α : Type} [BEq α] [LawfulBEq α] {x : α} {xs part : List α}
    (h : part ∈ xs.splitOn x) : x ∉ part := by
  induction xs generalizing part with
  | nil =>
    rw [List.splitOn_nil, List.mem_singleton] at h
    rw [h]
    exact List.not_mem_nil
  | cons y rest ih =>
    obtain ⟨first, parts, hrest⟩ := List.exists_cons_of_ne_nil (List.splitOn_ne_nil x rest)
    rw [List.splitOn_cons_eq_if_modifyHead, hrest] at h
    rw [hrest] at ih
    by_cases hy : (y == x) = true
    · rw [if_pos hy, List.mem_cons] at h
      obtain rfl | h := h
      · exact List.not_mem_nil
      · exact ih h
    · rw [if_neg hy, List.modifyHead_cons, List.mem_cons] at h
      obtain rfl | h := h
      · rw [List.mem_cons, not_or]
        exact ⟨fun hxy => hy (by simp [hxy]), ih (List.mem_cons_self ..)⟩
      · exact ih (List.mem_cons_of_mem _ h)

/-- Each entry is stripped, nonempty and without a comma. -/
theorem of_mem_commaSeparated {value entry : List Char} (h : entry ∈ commaSeparated value) :
    strip entry = entry ∧ entry.isEmpty = false ∧ ',' ∉ entry := by
  obtain ⟨hentry, hnonempty⟩ := List.mem_filter.mp h
  obtain ⟨part, hpart, rfl⟩ := List.mem_map.mp hentry
  refine ⟨strip_strip part, by simpa using hnonempty, fun hcomma => ?_⟩
  exact not_mem_of_mem_splitOn hpart (mem_of_mem_strip hcomma)

/-- Joined entries are separated into the same entries. -/
theorem commaSeparated_intercalate (value : List Char) :
    commaSeparated ([','].intercalate (commaSeparated value)) = commaSeparated value := by
  have hentries : ∀ entry ∈ commaSeparated value, strip entry = entry ∧ entry.isEmpty = false ∧ ',' ∉ entry :=
    fun _ => of_mem_commaSeparated
  generalize commaSeparated value = entries at hentries
  by_cases hempty : entries = []
  · rw [hempty]
    rfl
  · have hsplit : ([','].intercalate entries).splitOn ',' = entries :=
      List.splitOn_intercalate ',' (fun entry h => (hentries entry h).2.2) hempty
    have hstrip : entries.map strip = entries := by
      rw [List.map_congr_left fun entry h => (hentries entry h).1]
      exact List.map_id _
    rw [commaSeparated, hsplit, hstrip, List.filter_eq_self]
    intro entry h
    simp [(hentries entry h).2.1]

/-! ### The settings -/

/-- The check of the `trusted_proxy_cidrs` setting, which returns the normalised text. -/
def validateTrustedProxyCidrs (value : List Char) : Except Fault (List Char) := do
  let cidrs := commaSeparated value
  cidrs.forM fun cidr =>
    match ipNetwork cidr false with
    | .ok _ => .ok ()
    | .error _ => .error (.valueError "trusted_proxy_cidrs must contain comma-separated IP CIDRs")
  return [','].intercalate cidrs

/-- The `trusted_proxy_cidr_list` property of the settings. -/
def trustedProxyCidrList (trustedProxyCidrs : List Char) : List (List Char) := commaSeparated trustedProxyCidrs

/-- Every entry of an accepted text denotes a network, and the normalised text has the same entries. -/
theorem validateTrustedProxyCidrs_ok {value normalized : List Char}
    (h : validateTrustedProxyCidrs value = .ok normalized) :
    (∀ cidr ∈ commaSeparated value, ∃ i, ipInterface cidr = some i) ∧
      trustedProxyCidrList normalized = commaSeparated value := by
  obtain ⟨_, hchecks, hjoin⟩ := Except.bind_ok.mp h
  obtain rfl : [','].intercalate (commaSeparated value) = normalized := Except.ok.inj hjoin
  refine ⟨fun cidr hcidr => ?_, commaSeparated_intercalate value⟩
  have hread := forM_ok hchecks hcidr
  split at hread
  · rename_i network hnetwork
    obtain ⟨i, hi, _⟩ := ipNetwork_lax.mp hnetwork
    exact ⟨i, hi⟩
  · cases hread

/-! ### The middleware -/

/-- What the TLS check reads of a request: the host is absent where the server knows no client. -/
structure HttpRequest where
  scheme : String
  client : Option (List Char)
  forwardedProto : Option (List Char)

/-- The proxy configuration of `RequestContextMiddleware`. -/
structure RequestContextMiddleware where
  trustProxyHeaders : Bool
  trustedProxyNetworks : List IpNetwork

namespace RequestContextMiddleware

/-- The constructor reads every entry strictly. -/
def init (trustProxyHeaders : Bool) (trustedProxyCidrs : List (List Char)) :
    Except IpError RequestContextMiddleware := do
  let trustedProxyNetworks ← trustedProxyCidrs.mapM fun cidr => ipNetwork cidr
  return ⟨trustProxyHeaders, trustedProxyNetworks⟩

end RequestContextMiddleware

/-- The first forwarded protocol is HTTPS. Header texts are Latin-1, whose only letters that become these in lower
case are ASCII. -/
def HttpRequest.forwardedHttps (request : HttpRequest) : Bool :=
  let forwarded := request.forwardedProto.getD []
  (strip ((forwarded.splitOn ',').headD [])).map Char.toLower = "https".toList

/-- A request counts as made over TLS. -/
def RequestContextMiddleware.isSecure (m : RequestContextMiddleware) (request : HttpRequest) : Bool :=
  if request.scheme = "https" then true
  else if !m.trustProxyHeaders then false
  else match request.client with
    | none => false
    | some host =>
      match ipAddress host with
      | none => false
      | some remoteAddress =>
        if !m.trustedProxyNetworks.any (·.contains remoteAddress) then false
        else request.forwardedHttps

/-! ### Agreement -/

/-- The networks that the settings read from the entries contain the address. -/
def Denoted (value : List Char) (address : IpAddress) : Prop :=
  ∃ cidr ∈ commaSeparated value, ∃ network, ipNetwork cidr false = .ok network ∧ network.contains address = true

/-- The middleware can be built from the normalised text, and when proxy headers are trusted it believes the
forwarded protocol of exactly those plain clients whose address the configured networks contain. -/
def UsableAsWritten (value normalized : List Char) : Prop :=
  ∀ trustProxyHeaders, ∃ m, RequestContextMiddleware.init trustProxyHeaders (trustedProxyCidrList normalized) = .ok m ∧
    ∀ request : HttpRequest, request.scheme ≠ "https" →
      (m.isSecure request = true ↔
        trustProxyHeaders = true ∧
          (∃ host ∈ request.client, ∃ address, ipAddress host = some address ∧ Denoted value address) ∧
          request.forwardedHttps = true)

/-- No entry has an address bit outside its netmask. -/
def EntriesAligned (value : List Char) : Prop :=
  ∀ cidr ∈ commaSeparated value, ∀ i ∈ ipInterface cidr, i.NoHostBits

/-- A plain request counts as secure when a trusted client forwards HTTPS. -/
theorem RequestContextMiddleware.isSecure_iff {m : RequestContextMiddleware} {request : HttpRequest}
    (hplain : request.scheme ≠ "https") : m.isSecure request = true ↔
      m.trustProxyHeaders = true ∧
        (∃ host ∈ request.client, ∃ address, ipAddress host = some address ∧
          ∃ network ∈ m.trustedProxyNetworks, network.contains address = true) ∧
        request.forwardedHttps = true := by
  rw [RequestContextMiddleware.isSecure, if_neg hplain]
  cases hclient : request.client with
  | none => simp
  | some host =>
    cases hhost : ipAddress host with
    | none => simp [hhost]
    | some address => simp [hhost]

/-- The strict reading of aligned entries is the reading of the settings. -/
theorem mapM_ipNetwork {cidrs : List (List Char)}
    (hread : ∀ cidr ∈ cidrs, ∃ i, ipInterface cidr = some i ∧ i.NoHostBits) :
    ∃ networks, cidrs.mapM (fun cidr => ipNetwork cidr) = .ok networks ∧
      ∀ network, network ∈ networks ↔ ∃ cidr ∈ cidrs, ipNetwork cidr false = .ok network := by
  induction cidrs with
  | nil => exact ⟨[], rfl, by simp⟩
  | cons cidr rest ih =>
    obtain ⟨i, hi, haligned⟩ := hread cidr (List.mem_cons_self ..)
    obtain ⟨networks, hnetworks, hmem⟩ := ih fun c hc => hread c (List.mem_cons_of_mem _ hc)
    have hstrict : ipNetwork cidr = .ok i.network := ipNetwork_strict.mpr ⟨i, hi, haligned, rfl⟩
    have hlax : ∀ network, ipNetwork cidr false = .ok network ↔ network = i.network := by
      intro network
      rw [ipNetwork_lax, hi]
      simp [eq_comm]
    refine ⟨i.network :: networks, ?_, fun network => ?_⟩
    · rw [List.mapM_cons, hstrict, hnetworks]
      rfl
    · rw [List.mem_cons, hmem, List.exists_mem_cons_iff, hlax]

/-- Entries that are read strictly are aligned. -/
theorem aligned_of_mapM {cidrs : List (List Char)} {networks : List IpNetwork}
    (h : cidrs.mapM (fun cidr => ipNetwork cidr) = .ok networks) {cidr : List Char} (hcidr : cidr ∈ cidrs) :
    ∃ i, ipInterface cidr = some i ∧ i.NoHostBits := by
  induction cidrs generalizing networks with
  | nil => cases hcidr
  | cons first rest ih =>
    rw [List.mapM_cons] at h
    obtain ⟨network, hfirst, h⟩ := Except.bind_ok.mp h
    obtain ⟨others, hrest, _⟩ := Except.bind_ok.mp h
    obtain rfl | hcidr := List.mem_cons.mp hcidr
    · obtain ⟨i, hi, haligned, _⟩ := ipNetwork_strict.mp hfirst
      exact ⟨i, hi, haligned⟩
    · exact ih hrest hcidr

/-- An accepted proxy configuration works as written exactly when no entry has host bits set. -/
theorem usableAsWritten_iff {value normalized : List Char} (h : validateTrustedProxyCidrs value = .ok normalized) :
    UsableAsWritten value normalized ↔ EntriesAligned value := by
  obtain ⟨hread, hlist⟩ := validateTrustedProxyCidrs_ok h
  constructor
  · intro husable cidr hcidr i hi
    obtain ⟨m, hinit, _⟩ := husable true
    rw [hlist] at hinit
    obtain ⟨networks, hnetworks, _⟩ := Except.bind_ok.mp hinit
    obtain ⟨j, hj, haligned⟩ := aligned_of_mapM hnetworks hcidr
    obtain rfl : i = j := Option.some.inj (hi.symm.trans hj)
    exact haligned
  · intro haligned trustProxyHeaders
    obtain ⟨networks, hnetworks, hmem⟩ := mapM_ipNetwork fun cidr hcidr =>
      (hread cidr hcidr).imp fun i hi => ⟨hi, haligned cidr hcidr i hi⟩
    refine ⟨⟨trustProxyHeaders, networks⟩, ?_, fun request hplain => ?_⟩
    · rw [hlist, RequestContextMiddleware.init, hnetworks]
      rfl
    · rw [RequestContextMiddleware.isSecure_iff hplain]
      have hdenoted : ∀ address, (∃ network ∈ networks, network.contains address = true) ↔ Denoted value address := by
        intro address
        constructor
        · rintro ⟨network, hnetwork, hcontains⟩
          obtain ⟨cidr, hcidr, hlax⟩ := (hmem network).mp hnetwork
          exact ⟨cidr, hcidr, network, hlax, hcontains⟩
        · rintro ⟨cidr, hcidr, network, hlax, hcontains⟩
          exact ⟨network, (hmem network).mpr ⟨cidr, hcidr, hlax⟩, hcontains⟩
      simp only [hdenoted]

/-- An IPv4 and an IPv6 network without host bits, separated by a comma and a space. -/
theorem usableAsWritten_twoNetworks :
    UsableAsWritten "10.20.0.0/16, 2001:db8::/32".toList "10.20.0.0/16,2001:db8::/32".toList :=
  (usableAsWritten_iff (by decide)).mpr (by unfold EntriesAligned; decide)

/-- A network written with the address of a host in it is accepted, but no middleware can be built from it. -/
theorem not_usableAsWritten :
    ∃ normalized, validateTrustedProxyCidrs "10.20.0.1/16".toList = .ok normalized ∧
      ¬UsableAsWritten "10.20.0.1/16".toList normalized := by
  refine ⟨"10.20.0.1/16".toList, by decide, fun husable => ?_⟩
  obtain ⟨m, hinit, _⟩ := husable true
  have hrefused : (RequestContextMiddleware.init true (trustedProxyCidrList "10.20.0.1/16".toList)).isOk = false := by
    decide
  rw [hinit] at hrefused
  cases hrefused

end TaxStamp
