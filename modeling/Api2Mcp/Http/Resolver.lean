import Api2Mcp.Http.Ssrf

namespace api2mcp.http

open net

inductive DnsError where
  | Backend (host message : String)
  | AllAddressesDenied (host : String)
  deriving DecidableEq, Repr

/-- `BTreeSet<IpAddr>::insert`: sorted, each address once. -/
def insert_addr (ip : IpAddr) : List IpAddr → List IpAddr
  | [] => [ip]
  | ip' :: ips =>
    if ip.lt ip' then ip :: ip' :: ips
    else if ip = ip' then ip' :: ips
    else ip' :: insert_addr ip ips

/-- The resolver every upstream client is built with. -/
structure GuardedResolver where
  policy : SsrfPolicy
  deriving DecidableEq

/-- `lookup` is what the backend answered for the host. -/
def GuardedResolver.resolve (resolver : GuardedResolver) (host : String)
    (lookup : Except String (List IpAddr)) : Except DnsError (List IpAddr) :=
  match lookup with
  | .error message => .error (.Backend host message)
  | .ok candidates =>
    let survivors := candidates.foldl (fun survivors ip =>
      let allowed := (resolver.policy.allow_loopback && ip.is_loopback) ||
        decide (classify ip = .Allowed)
      if allowed then insert_addr ip survivors else survivors) []
    if survivors.isEmpty then .error (.AllAddressesDenied host) else .ok survivors

theorem mem_insert_addr {ip a : IpAddr} {ips : List IpAddr} :
    a ∈ insert_addr ip ips ↔ a = ip ∨ a ∈ ips := by
  induction ips with
  | nil => simp [insert_addr]
  | cons ip' ips ih =>
    unfold insert_addr
    split
    · simp
    split
    · rename_i heq
      simp [heq]
    · simp only [List.mem_cons, ih]
      exact or_left_comm

/-- Every address the resolver hands out may be dialed. -/
theorem GuardedResolver.dialable {resolver : GuardedResolver} {host : String}
    {lookup : Except String (List IpAddr)} {addrs : List IpAddr}
    (h : resolver.resolve host lookup = .ok addrs) : ∀ a ∈ addrs, Dialable resolver.policy a := by
  have hfold : ∀ (candidates survivors : List IpAddr),
      (∀ a ∈ survivors, Dialable resolver.policy a) →
      ∀ a ∈ candidates.foldl (fun survivors ip =>
        let allowed := (resolver.policy.allow_loopback && ip.is_loopback) ||
          decide (classify ip = .Allowed)
        if allowed then insert_addr ip survivors else survivors) survivors,
        Dialable resolver.policy a := by
    intro candidates
    induction candidates with
    | nil => exact fun _ hsurvivors => hsurvivors
    | cons ip candidates ih =>
      intro survivors hsurvivors
      refine ih _ ?_
      dsimp only
      split
      · rename_i hallowed
        intro a ha
        obtain rfl | hold := mem_insert_addr.mp ha
        · exact dialable_iff.mpr (by simpa using hallowed)
        · exact hsurvivors a hold
      · exact hsurvivors
  unfold resolve at h
  split at h
  · cases h
  dsimp only at h
  split at h
  · cases h
  · cases h
    exact hfold _ [] (by simp)

end api2mcp.http
