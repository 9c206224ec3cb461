import SignalAccess.Proofs.Text.Search
import SignalAccess.Request.Address

/-!
# Addresses of hosts

An address of a host is cut at its first slash, where the slashes of a scheme in front do not count,
so that what stands in front of the cut is the host and what stands behind it the file. Reading
looks for the scheme anywhere in the address, though, and reads on from there. A scheme that is not
in front always has a slash in front of its end, so that the address is never cut where it should
be: what stands in front of the scheme is lost, or the address is not cut at all.
-/

namespace SignalAccess

namespace Address

variable {t server file front tail host : Text} {request : Request}

/-- How an address divides into a server and a file: at the first slash, that of a scheme in front
aside. -/
structure Divides (t server file : Text) : Prop where
  /-- Nothing of the address is lost. -/
  whole : t = server ++ '/' :: file
  /-- No slash stands in front of the cut, but for those of a scheme in front. -/
  first : ∃ host, '/' ∉ host ∧
    (server = securedScheme ++ host ∨ server = host ∧ ¬securedScheme <+: t)

/-- What an address of a host means for a request. -/
inductive Reaches (t : Text) (request : Request) : Request → Prop where
  /-- An address that divides is a server and a file. -/
  | divided {server file : Text} (divides : Divides t server file) :
    Reaches t request { request with server := server, file := file }
  /-- Any other address is a server as a whole. -/
  | whole (undivided : ∀ server file, ¬Divides t server file) :
    Reaches t request { request with server := t }

/-! ## Where an address divides -/

/-- An address with a scheme in front divides as what stands behind the scheme. -/
theorem divides_secured_iff : Divides (securedScheme ++ tail) server file ↔
    ∃ host, '/' ∉ host ∧ server = securedScheme ++ host ∧ tail = host ++ '/' :: file := by
  constructor
  · rintro ⟨whole, host, free, rfl | ⟨-, unsecured⟩⟩
    · rw [List.append_assoc, List.append_cancel_left_eq] at whole
      exact ⟨host, free, rfl, whole⟩
    · exact absurd (List.prefix_append securedScheme tail) unsecured
  · rintro ⟨host, free, rfl, rfl⟩
    exact ⟨by rw [List.append_assoc], host, free, .inl rfl⟩

/-- An address without a scheme in front divides at its first slash. -/
theorem divides_plain_iff (unsecured : ¬securedScheme <+: t) :
    Divides t server file ↔ '/' ∉ server ∧ t = server ++ '/' :: file := by
  constructor
  · rintro ⟨whole, host, free, rfl | ⟨rfl, -⟩⟩
    · rw [List.append_assoc] at whole
      exact absurd ⟨_, whole.symm⟩ unsecured
    · exact ⟨free, whole⟩
  · rintro ⟨free, whole⟩
    exact ⟨whole, server, free, .inr ⟨rfl, unsecured⟩⟩

/-! ## What is read -/

/-- A scheme in front is the first one. -/
theorem breakOn_secured (tail : Text) :
    Text.breakOn (securedScheme ++ tail) securedScheme = some ([], tail) :=
  Text.breakOn_append_cons (List.not_mem_nil (a := 'S')) "SL://".toList tail

/-- Behind a scheme the first slash cuts, wherever the scheme stands. -/
theorem remote_of_cut (found : t.breakOn securedScheme = some (front, tail))
    (free : '/' ∉ host) (whole : tail = host ++ '/' :: file) (request : Request) :
    remote t request = { request with server := securedScheme ++ host, file := file } := by
  simp [remote, found, whole, Text.breakAt_append free]

/-- Behind a scheme that no slash follows, the whole address is the server. -/
theorem remote_of_uncut (found : t.breakOn securedScheme = some (front, tail))
    (free : '/' ∉ tail) (request : Request) : remote t request = { request with server := t } := by
  simp [remote, found, Text.breakAt_eq_none_iff.mpr free]

/-- What stands in front of a scheme is not read, unless the scheme has no slash behind it. -/
theorem remote_of_found (found : t.breakOn securedScheme = some (front, tail)) (held : '/' ∈ tail)
    (request : Request) : remote t request = remote (securedScheme ++ tail) request := by
  obtain ⟨host, file, whole, free, -⟩ := Text.exists_breakAt_of_mem held
  rw [remote_of_cut found free whole, remote_of_cut (breakOn_secured tail) free whole]

/-- An address with a scheme in front reaches its server and its file. -/
theorem reaches_of_secured (tail : Text) (request : Request) :
    Reaches (securedScheme ++ tail) request (remote (securedScheme ++ tail) request) := by
  have found := breakOn_secured tail
  by_cases held : '/' ∈ tail
  · obtain ⟨host, file, whole, free, -⟩ := Text.exists_breakAt_of_mem held
    rw [remote_of_cut found free whole]
    exact .divided (divides_secured_iff.mpr ⟨host, free, rfl, whole⟩)
  · rw [remote_of_uncut found held]
    refine .whole fun server file divides => held ?_
    obtain ⟨host, -, -, rfl⟩ := divides_secured_iff.mp divides
    simp

/-- An address without a scheme reaches its server and its file. -/
theorem reaches_of_plain (absent : ¬securedScheme <:+: t) (request : Request) :
    Reaches t request (remote t request) := by
  have unsecured : ¬securedScheme <+: t := fun leads => absent leads.isInfix
  have unfound := Text.breakOn_eq_none_iff.mpr absent
  by_cases held : '/' ∈ t
  · obtain ⟨host, file, whole, free, cut⟩ := Text.exists_breakAt_of_mem held
    have read : remote t request = { request with server := host, file := file } := by
      simp [remote, unfound, cut]
    rw [read]
    exact .divided ((divides_plain_iff unsecured).mpr ⟨free, whole⟩)
  · have read : remote t request = { request with server := t } := by
      simp [remote, unfound, Text.breakAt_eq_none_iff.mpr held]
    rw [read]
    refine .whole fun server file divides => held ?_
    rw [((divides_plain_iff unsecured).mp divides).2]
    simp

/-- With a scheme elsewhere than in front the server that is meant holds no slash, but the server
that is read holds one. -/
theorem not_reaches_of_behind (unsecured : ¬securedScheme <+: t) (held : securedScheme <:+: t)
    (request : Request) : ¬Reaches t request (remote t request) := by
  have inScheme : '/' ∈ securedScheme := by decide
  have inText : '/' ∈ t := held.subset inScheme
  obtain ⟨⟨front, tail⟩, found⟩ : ∃ parts, t.breakOn securedScheme = some parts := by
    rw [← Option.ne_none_iff_exists']
    exact fun absent => Text.breakOn_eq_none_iff.mp absent held
  have slash : '/' ∈ (remote t request).server := by
    by_cases behind : '/' ∈ tail
    · obtain ⟨host, file, whole, free, -⟩ := Text.exists_breakAt_of_mem behind
      rw [remote_of_cut found free whole]
      exact List.mem_append_left host inScheme
    · rw [remote_of_uncut found behind]
      exact inText
  generalize remote t request = read at slash
  intro reaches
  cases reaches with
  | divided divides => exact ((divides_plain_iff unsecured).mp divides).1 slash
  | whole undivided =>
    obtain ⟨host, file, whole, free, -⟩ := Text.exists_breakAt_of_mem inText
    exact undivided host file ((divides_plain_iff unsecured).mpr ⟨free, whole⟩)

/-- An address is read as it is meant if a scheme stands in front of it or nowhere in it, and never
otherwise. Wherever a scheme is found, what is read starts with it if a slash follows it, and is the
whole address as a server if none does. -/
theorem remote_reaches_iff (t : Text) (request : Request) :
    (Reaches t request (remote t request) ↔ securedScheme <+: t ∨ ¬securedScheme <:+: t) ∧
    ∀ front tail, t.breakOn securedScheme = some (front, tail) →
      ('/' ∈ tail → remote t request = remote (securedScheme ++ tail) request) ∧
      ('/' ∉ tail → remote t request = { request with server := t }) := by
  refine ⟨⟨fun reaches => ?_, ?_⟩, fun front tail found => ⟨fun held => ?_, fun free => ?_⟩⟩
  · by_contra behind
    rw [not_or, not_not] at behind
    exact not_reaches_of_behind behind.1 behind.2 request reaches
  · rintro (⟨tail, rfl⟩ | absent)
    · exact reaches_of_secured tail request
    · exact reaches_of_plain absent request
  · exact remote_of_found found held request
  · exact remote_of_uncut found free request

/-- The host in front of a scheme is not read. -/
example : remote "host/SSL://other/data".toList .blank =
    { Request.blank with server := "SSL://other".toList, file := "data".toList } := by
  decide

/-- The host is lost where the file behind it is an address with a scheme. -/
theorem not_forall_reaches : ¬∀ (t : Text) (request : Request),
    Reaches t request (remote t request) := fun all =>
  not_reaches_of_behind (by decide) (by decide) Request.blank
    (all "host/SSL://other/data".toList Request.blank)

end Address

end SignalAccess
