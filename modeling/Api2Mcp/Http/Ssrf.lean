import Api2Mcp.Http.DenyTable
import Api2Mcp.Model.Origin

namespace api2mcp.http

open net
open api2mcp.model

inductive GuardError where
  | UnsupportedScheme (scheme : String)
  | OriginNotAllowed (origin : String)
  | NoHost
  | DeniedLiteralIp (host range : String)
  deriving DecidableEq, Repr

structure SsrfPolicy where
  allow_loopback : Bool := false
  deriving DecidableEq, Repr

def assert_allowed (origin : Origin) (allowlist : List Origin) : Except GuardError Unit :=
  if Origin.contains allowlist origin then .ok ()
  else .error (.OriginNotAllowed origin.ascii_serialization)

def check_ip (ip : IpAddr) (policy : SsrfPolicy) : Except GuardError Unit :=
  if policy.allow_loopback && ip.is_loopback then .ok ()
  else
    match classify ip with
    | .Allowed => .ok ()
    | .Denied range => .error (.DeniedLiteralIp ip.to_string range)

def check_url (url : Url) (allowlist : List Origin) (policy : SsrfPolicy) :
    Except GuardError Unit :=
  if url.scheme ≠ "http" ∧ url.scheme ≠ "https" then .error (.UnsupportedScheme url.scheme)
  else
    match Origin.of url with
    | .error _ => .error .NoHost
    | .ok origin =>
      match assert_allowed origin allowlist with
      | .error e => .error e
      | .ok () =>
        match url.host_str with
        | none => .error .NoHost
        | some host =>
          match IpAddr.from_str host with
          | some ip => check_ip ip policy
          | none => .ok ()

/-- An address that may be dialed: neither it nor an IPv4 address it carries
is denied, unless it is a loopback address the policy lets through. -/
def Dialable (policy : SsrfPolicy) (ip : IpAddr) : Prop :=
  (policy.allow_loopback = true ∧ ip.is_loopback = true) ∨
    (classify ip = .Allowed ∧
      ∀ v6, ip = .V6 v6 → ∀ v4 ∈ embedded_v4_addresses v6, classify (.V4 v4) = .Allowed)

/-- What both halves of the guard test of an address. -/
theorem dialable_iff {policy : SsrfPolicy} {ip : IpAddr} :
    Dialable policy ip ↔
      (policy.allow_loopback && ip.is_loopback) = true ∨ classify ip = .Allowed := by
  unfold Dialable
  constructor
  · rintro (⟨hpolicy, hip⟩ | ⟨hallowed, _⟩)
    · exact .inl (by rw [hpolicy, hip]; rfl)
    · exact .inr hallowed
  · rintro (hloopback | hallowed)
    · exact .inl ((Bool.and_eq_true _ _).mp hloopback)
    · refine .inr ⟨hallowed, fun v6 hv6 => ?_⟩
      rw [hv6] at hallowed
      exact classify_embedded hallowed

theorem check_ip_ok_iff {ip : IpAddr} {policy : SsrfPolicy} :
    check_ip ip policy = .ok () ↔ Dialable policy ip := by
  rw [dialable_iff]
  unfold check_ip
  split
  · rename_i hloopback
    exact iff_of_true rfl (.inl hloopback)
  · rename_i hloopback
    split
    · rename_i hallowed
      exact iff_of_true rfl (.inr hallowed)
    · rename_i range hdenied
      refine iff_of_false (by simp) ?_
      simp [hloopback, hdenied]

theorem scheme_of_check_url {url : Url} {allowlist : List Origin} {policy : SsrfPolicy}
    (h : check_url url allowlist policy = .ok ()) : url.scheme = "http" ∨ url.scheme = "https" := by
  by_contra hscheme
  rw [check_url, if_pos (not_or.mp hscheme)] at h
  cases h

/-- A URL that passes is on the allowlist. -/
theorem origin_of_check_url {url : Url} {allowlist : List Origin} {policy : SsrfPolicy}
    (h : check_url url allowlist policy = .ok ()) :
    ∃ origin, Origin.of url = .ok origin ∧ Origin.contains allowlist origin = true := by
  unfold check_url at h
  split at h
  · cases h
  split at h
  · cases h
  rename_i origin horigin
  refine ⟨origin, horigin, ?_⟩
  by_contra hcontains
  simp [assert_allowed, hcontains] at h

/-- The literal of an IPv4 host is checked. -/
theorem ipv4_of_check_url {url : Url} {allowlist : List Origin} {policy : SsrfPolicy}
    {v4 : Ipv4Addr} (hhost : url.host = some (.Ipv4 v4))
    (h : check_url url allowlist policy = .ok ()) : Dialable policy (.V4 v4) := by
  unfold check_url at h
  split at h
  · cases h
  split at h
  · cases h
  split at h
  · cases h
  simp only [Url.host_str, hhost, Option.map_some, Host.to_string, IpAddr.from_str_to_string] at h
  exact check_ip_ok_iff.mp h

/-- The literal of an IPv6 host is not: in its brackets it parses as no address. -/
theorem from_str_ipv6_host (v6 : Ipv6Addr) : IpAddr.from_str (Host.to_string (.Ipv6 v6)) = none := by
  have htext : (Host.to_string (.Ipv6 v6)).toList =
      '[' :: ((Ipv6Addr.groups_text v6).toList ++ [']']) := by
    simp [Host.to_string, String.toList_append]
  exact IpAddr.from_str_bracket htext

/-- So a URL with an IPv6 host passes as soon as its origin is on the allowlist. -/
theorem check_url_ipv6 {url : Url} {allowlist : List Origin} {policy : SsrfPolicy}
    {v6 : Ipv6Addr} {origin : Origin} (hscheme : url.scheme = "http" ∨ url.scheme = "https")
    (hhost : url.host = some (.Ipv6 v6)) (horigin : Origin.of url = .ok origin)
    (hcontains : Origin.contains allowlist origin = true) :
    check_url url allowlist policy = .ok () := by
  have hsupported : ¬ (url.scheme ≠ "http" ∧ url.scheme ≠ "https") :=
    fun hnot => hscheme.elim hnot.1 hnot.2
  rw [check_url, if_neg hsupported]
  simp only [horigin, assert_allowed, hcontains, if_true, Url.host_str, hhost, Option.map_some,
    from_str_ipv6_host]

end api2mcp.http
