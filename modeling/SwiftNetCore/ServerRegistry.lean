import SwiftNetCore.Base
import SwiftNetCore.Lib.Cells
import SwiftNetCore.Lib.Path

/-!
# The connections of a server

`TcpServer` keeps its connections in a map under their names, and makes each name from its own
name, its address and a counter. The counter is an `int`, so the names come round again after
`2 ^ 32` connections, and `connections_[connName] = conn` replaces what stands under a name.

* `InetAddress.toIpPort`, `connName`: the name; `connName_injective`: it tells the values of the
  counter apart, since none is long enough for `snprintf` to cut.
* `newConnection`, `removeConnecitonInLoop`: the functions of the source.
* `Registered`: the map has exactly the connections that were accepted and not removed, each under
  its name.
* `registered_iff`: over every run, that is so in every state exactly when no connection is
  accepted while one lives that was accepted a multiple of `2 ^ 32` connections before.
-/

namespace SwiftNetCore

open Paths (Path Throughout MeetsAll trace path_trace)

/-! ## Names -/

/-- What `"%d"` prints. -/
def decimalInt (n : ℤ) : Bytes := if n < 0 then 45 :: decimal n.natAbs else decimal n.natAbs

/-- Different numbers have different numerals. -/
lemma decimal_injective : Function.Injective decimal := fun m n h => by
  rw [← digitsValue_decimal m, h, digitsValue_decimal]

/-- A numeral does not begin with a sign. -/
lemma decimal_ne_cons_minus (n : ℕ) (l : Bytes) : decimal n ≠ 45 :: l := by
  intro h
  have hdigit : isdigit 45 = true := isdigit_of_mem_decimal (h ▸ List.mem_cons_self)
  exact absurd hdigit (by decide)

/-- Different integers have different numerals. -/
lemma decimalInt_injective : Function.Injective decimalInt := by
  intro m n h
  unfold decimalInt at h
  split_ifs at h with hm hn hn
  · have := decimal_injective (List.cons.inj h).2
    omega
  · exact absurd h.symm (decimal_ne_cons_minus _ _)
  · exact absurd h (decimal_ne_cons_minus _ _)
  · have := decimal_injective h
    omega

/-- The numeral of an `int` has at most eleven characters. -/
lemma length_decimalInt_le {n : ℤ} (h : -2 ^ 31 ≤ n ∧ n < 2 ^ 31) :
    (decimalInt n).length ≤ 11 := by
  have hdigits : (decimal n.natAbs).length ≤ 10 := length_decimal_le (by omega) (by omega)
  unfold decimalInt
  split
  · rw [List.length_cons]
    omega
  · omega

/-- `InetAddress`: the address in dotted order, and the port. Source: InetAddress.h 25-26 -/
structure InetAddress where
  a : UInt8
  b : UInt8
  c : UInt8
  d : UInt8
  port : UInt16
  deriving DecidableEq

namespace InetAddress

/-- `toIpPort()`. Source: InetAddress.cpp 26-36 -/
def toIpPort (addr : InetAddress) : Bytes :=
  decimal addr.a.toNat ++ lit "." ++ decimal addr.b.toNat ++ lit "." ++ decimal addr.c.toNat ++
    lit "." ++ decimal addr.d.toNat ++ lit ":" ++ decimal addr.port.toNat

/-- An address has at most 21 characters. -/
lemma length_toIpPort_le (addr : InetAddress) : addr.toIpPort.length ≤ 21 := by
  have hbyte : ∀ n : UInt8, (decimal n.toNat).length ≤ 3 := fun n =>
    length_decimal_le (by omega) (by have := n.toNat_lt; omega)
  have hport : (decimal addr.port.toNat).length ≤ 5 :=
    length_decimal_le (by omega) (by have := addr.port.toNat_lt; omega)
  have ha := hbyte addr.a
  have hb := hbyte addr.b
  have hc := hbyte addr.c
  have hd := hbyte addr.d
  have hdot : (lit ".").length = 1 := rfl
  have hcolon : (lit ":").length = 1 := rfl
  simp only [toIpPort, List.length_append]
  omega

end InetAddress

/-- What `snprintf` leaves in a `char buf[64]`. -/
def snprintf64 (text : Bytes) : Bytes := text.take 63

/-- `connName`. Source: TcpServer.cpp 70-73 -/
def connName (name ipPort : Bytes) (nextConnId : ℤ) : Bytes :=
  name ++ snprintf64 (lit "-" ++ ipPort ++ lit "#" ++ decimalInt nextConnId)

/-- **The names of different values of the counter are different.** -/
lemma connName_injective {name : Bytes} {addr : InetAddress} {m n : ℤ}
    (hm : -2 ^ 31 ≤ m ∧ m < 2 ^ 31) (hn : -2 ^ 31 ≤ n ∧ n < 2 ^ 31)
    (h : connName name addr.toIpPort m = connName name addr.toIpPort n) : m = n := by
  have hfits : ∀ {k : ℤ}, -2 ^ 31 ≤ k ∧ k < 2 ^ 31 →
      snprintf64 (lit "-" ++ addr.toIpPort ++ lit "#" ++ decimalInt k) =
        lit "-" ++ addr.toIpPort ++ lit "#" ++ decimalInt k := by
    intro k hk
    apply List.take_of_length_le
    have h₁ := length_decimalInt_le hk
    have h₂ := addr.length_toIpPort_le
    have h₃ : (lit "-").length = 1 := rfl
    have h₄ : (lit "#").length = 1 := rfl
    simp only [List.length_append]
    omega
  unfold connName at h
  rw [hfits hm, hfits hn] at h
  exact decimalInt_injective (List.append_cancel_left (List.append_cancel_left h))

/-! ## The counter -/

/-- `++nextConnId_`, with the wrap of a 32-bit `int`. -/
def increment (n : ℤ) : ℤ := (n + 1).bmod (2 ^ 32)

/-- The value of `nextConnId_` behind `k` increments from `1`. -/
def connId (k : ℕ) : ℤ := (1 + k : ℤ).bmod (2 ^ 32)

/-- One more increment of the counter gives its next value. -/
lemma increment_connId (k : ℕ) : increment (connId k) = connId (k + 1) := by
  have hnext : (1 + (k : ℤ)) + 1 = 1 + ((k + 1 : ℕ) : ℤ) := by omega
  unfold increment connId
  rw [Int.bmod_add_bmod, hnext]

/-- The counter is an `int`. -/
lemma connId_mem (k : ℕ) : -2 ^ 31 ≤ connId k ∧ connId k < 2 ^ 31 := by
  unfold connId
  rw [Int.bmod_def]
  simp only [Nat.reducePow]
  split_ifs <;> omega

/-- **When the counter has the same value again.** -/
lemma connId_eq_iff {j k : ℕ} (h : j ≤ k) : connId j = connId k ↔ 2 ^ 32 ∣ k - j := by
  unfold connId
  rw [Int.bmod_add_cancel_left, Int.bmod_def, Int.bmod_def]
  simp only [Nat.reducePow]
  split_ifs <;> omega

/-! ## The server -/

/-- A connection that was accepted. -/
structure AcceptedConnection where
  /-- `name_` of the connection -/
  name : Bytes
  /-- whether `removeConnecitonInLoop` has run for it -/
  removed : Bool := false
  deriving DecidableEq

/-- A `TcpServer` with its connections; they have the numbers in which order they came. -/
structure ServerRegistry where
  /-- `name_` -/
  name : Bytes
  /-- `listenAddr`, of which `ipPort_` is the text -/
  listenAddr : InetAddress
  /-- `nextConnId_` -/
  nextConnId : ℤ := 1
  /-- `connections_` -/
  connections : Bytes → Option ℕ := fun _ => none
  /-- the connections that were accepted -/
  accepted : List AcceptedConnection := []

/-- What happens to the connections of a server. -/
inductive RegistryEvent where
  /-- `newConnection` -/
  | newConnection
  /-- `removeConnecitonInLoop(conn)`, once at most for each connection -/
  | removeConnecitonInLoop (k : ℕ)
  deriving DecidableEq, Repr

namespace ServerRegistry

variable (s : ServerRegistry)

/-- The name of the next connection. -/
def nextName : Bytes := connName s.name s.listenAddr.toIpPort s.nextConnId

/-- `newConnection(sockfd, peerAddr)`. Source: TcpServer.cpp 66-108 -/
def newConnection : ServerRegistry :=
  { s with
    nextConnId := increment s.nextConnId
    connections := Function.update s.connections s.nextName (some s.accepted.length)
    accepted := s.accepted ++ [{ name := s.nextName }] }

/-- `removeConnecitonInLoop(conn)`. Source: TcpServer.cpp 116-126 -/
def removeConnecitonInLoop (k : ℕ) (c : AcceptedConnection) : ServerRegistry :=
  { s with
    connections := Function.update s.connections c.name none
    accepted := s.accepted.set k { c with removed := true } }

/-- One step. -/
def step : RegistryEvent → Option ServerRegistry
  | .newConnection => some s.newConnection
  | .removeConnecitonInLoop k =>
    match s.accepted[k]? with
    | some c => if c.removed then none else some (s.removeConnecitonInLoop k c)
    | none => none

/-- The steps, as a relation. -/
def Step (event : RegistryEvent) (t : ServerRegistry) : Prop := s.step event = some t

/-- The map has exactly the connections that were accepted and not removed, one entry each. -/
def Registered : Prop :=
  ∀ name k, s.connections name = some k ↔
    ∃ c, s.accepted[k]? = some c ∧ c.removed = false ∧ c.name = name

/-- The condition: no connection that lives was accepted a multiple of `2 ^ 32` connections ago. -/
def NotComeRound : RegistryEvent → Prop
  | .newConnection =>
    ∀ k < s.accepted.length, (∃ c ∈ s.accepted[k]?, c.removed = false) →
      ¬ 2 ^ 32 ∣ s.accepted.length - k
  | .removeConnecitonInLoop _ => True

instance : DecidablePred s.NotComeRound
  | .newConnection => inferInstanceAs (Decidable (∀ k < s.accepted.length, _))
  | .removeConnecitonInLoop _ => inferInstanceAs (Decidable True)

/-! ## What is kept besides -/

/-- The connections have the names that the counter gives. -/
structure Numbered : Prop where
  nextConnId : s.nextConnId = connId s.accepted.length
  names : ∀ (k : ℕ) (c : AcceptedConnection), s.accepted[k]? = some c →
    c.name = connName s.name s.listenAddr.toIpPort (connId k)

variable {s} {t : ServerRegistry} {k : ℕ} {c : AcceptedConnection}

/-- Two connections have the same name only when the counter has come round between them. -/
lemma Numbered.name_eq_iff (h : s.Numbered) (hk : s.accepted[k]? = some c) :
    c.name = s.nextName ↔ 2 ^ 32 ∣ s.accepted.length - k := by
  have hlt : k < s.accepted.length := (List.getElem?_eq_some_iff.mp hk).1
  rw [h.names k c hk, nextName, h.nextConnId, ← connId_eq_iff hlt.le]
  constructor
  · exact connName_injective (connId_mem _) (connId_mem _)
  · exact fun heq => by rw [heq]

/-- Behind `newConnection`, the accepted connections are those before and the new one. -/
lemma getElem?_newConnection (j : ℕ) (c : AcceptedConnection) :
    s.newConnection.accepted[j]? = some c ↔
      s.accepted[j]? = some c ∨ j = s.accepted.length ∧ c = { name := s.nextName } :=
  Cells.getElem?_concat_iff

/-- Behind `newConnection`, the map has the new connection under its name. -/
lemma connections_newConnection (name : Bytes) :
    s.newConnection.connections name =
      if name = s.nextName then some s.accepted.length else s.connections name :=
  Function.update_apply _ _ _ _

/-- Behind `removeConnecitonInLoop`, its connection is noted as removed. -/
lemma getElem?_removeConnecitonInLoop (hk : s.accepted[k]? = some c) (j : ℕ)
    (d : AcceptedConnection) :
    (s.removeConnecitonInLoop k c).accepted[j]? = some d ↔
      j ≠ k ∧ s.accepted[j]? = some d ∨ j = k ∧ d = { c with removed := true } :=
  Cells.getElem?_set_iff hk

/-- `newConnection` gives the name that the counter gives. -/
lemma Numbered.newConnection (h : s.Numbered) : s.newConnection.Numbered where
  nextConnId := by
    rw [ServerRegistry.newConnection]
    simp only [List.length_append, List.length_singleton]
    rw [h.nextConnId, increment_connId]
  names := by
    intro j c hj
    rcases (getElem?_newConnection j c).mp hj with hj | ⟨rfl, rfl⟩
    · exact h.names j c hj
    · rw [nextName, h.nextConnId]
      rfl

/-- `removeConnecitonInLoop` leaves the names of the connections as they are. -/
lemma Numbered.removeConnecitonInLoop (h : s.Numbered) (hk : s.accepted[k]? = some c) :
    (s.removeConnecitonInLoop k c).Numbered where
  nextConnId := by
    rw [ServerRegistry.removeConnecitonInLoop]
    simp only [List.length_set]
    exact h.nextConnId
  names := by
    intro j d hj
    rcases (getElem?_removeConnecitonInLoop hk j d).mp hj with ⟨-, hj⟩ | ⟨rfl, rfl⟩
    · exact h.names j d hj
    · exact h.names j c hk

/-! ## Steps -/

/-- **A new connection** keeps the property exactly when no live one has its name. -/
lemma registered_newConnection_iff (h : s.Registered) (hn : s.Numbered) :
    s.newConnection.Registered ↔ s.NotComeRound .newConnection := by
  constructor
  · rintro ht k hlt ⟨c, hk, hlive⟩ hdvd
    have hname := (hn.name_eq_iff hk).mpr hdvd
    -- the entry of the old connection is now that of the new one
    have hold := (ht s.nextName k).mpr ⟨c, (getElem?_newConnection k c).mpr (.inl hk), hlive, hname⟩
    rw [connections_newConnection, if_pos rfl] at hold
    exact hlt.ne (Option.some.inj hold).symm
  · intro hfresh name j
    have hother : ∀ c, s.accepted[j]? = some c → c.removed = false → c.name ≠ s.nextName := by
      intro c hj hlive hname
      exact hfresh j (List.getElem?_eq_some_iff.mp hj).1 ⟨c, hj, hlive⟩
        ((hn.name_eq_iff hj).mp hname)
    rw [connections_newConnection]
    simp only [getElem?_newConnection]
    split_ifs with hname
    · subst hname
      constructor
      · intro heq
        exact ⟨_, .inr ⟨(Option.some.inj heq).symm, rfl⟩, rfl, rfl⟩
      · rintro ⟨c, hj | ⟨rfl, -⟩, hlive, hcname⟩
        · exact absurd hcname (hother c hj hlive)
        · rfl
    · rw [h name j]
      constructor
      · rintro ⟨c, hj, hc⟩
        exact ⟨c, .inl hj, hc⟩
      · rintro ⟨c, hj | ⟨-, rfl⟩, hlive, hcname⟩
        · exact ⟨c, hj, hlive, hcname⟩
        · exact absurd hcname.symm hname

/-- **A removal** erases the entry of its own connection. -/
lemma Registered.removeConnecitonInLoop (h : s.Registered) (hk : s.accepted[k]? = some c)
    (hlive : c.removed = false) : (s.removeConnecitonInLoop k c).Registered := by
  intro name j
  have hentry : (s.removeConnecitonInLoop k c).connections name =
      if name = c.name then none else s.connections name :=
    Function.update_apply _ _ _ _
  rw [hentry]
  simp only [getElem?_removeConnecitonInLoop hk]
  split_ifs with hname
  · subst hname
    apply iff_of_false nofun
    rintro ⟨d, ⟨hne, hj⟩ | ⟨-, rfl⟩, hdlive, hdname⟩
    · -- only one live connection has an entry under this name
      have h₁ := (h c.name j).mpr ⟨d, hj, hdlive, hdname⟩
      have h₂ := (h c.name k).mpr ⟨c, hk, hlive, rfl⟩
      exact hne (Option.some.inj (h₁.symm.trans h₂))
    · exact absurd hdlive nofun
  · rw [h name j]
    constructor
    · rintro ⟨d, hj, hdlive, hdname⟩
      refine ⟨d, .inl ⟨?_, hj⟩, hdlive, hdname⟩
      rintro rfl
      obtain rfl := Option.some.inj (hk.symm.trans hj)
      exact hname hdname.symm
    · rintro ⟨d, ⟨-, hj⟩ | ⟨-, rfl⟩, hdlive, hdname⟩
      · exact ⟨d, hj, hdlive, hdname⟩
      · exact absurd hdlive nofun

/-- A removal is of a connection that was accepted and not removed. -/
lemma exists_of_step_remove (hst : s.Step (.removeConnecitonInLoop k) t) :
    ∃ c, s.accepted[k]? = some c ∧ c.removed = false ∧ t = s.removeConnecitonInLoop k c := by
  rcases hk : s.accepted[k]? with _ | c <;> simp only [Step, step, hk] at hst
  · exact absurd hst nofun
  · simp only [Option.ite_none_left_eq_some, Bool.not_eq_true, Option.some.injEq] at hst
    exact ⟨c, rfl, hst.1, hst.2.symm⟩

/-! ## Runs -/

/-- A server without connections. -/
def start (name : Bytes) (listenAddr : InetAddress) : ServerRegistry :=
  { name := name, listenAddr := listenAddr }

/-- The server has no connections at first, so all have the names that the counter gives. -/
lemma numbered_start (name : Bytes) (listenAddr : InetAddress) :
    (start name listenAddr).Numbered where
  nextConnId := show (1 : ℤ) = connId 0 by decide +kernel
  names := by simp [start]

/-- The map is empty at first, as there are no connections. -/
lemma registered_start (name : Bytes) (listenAddr : InetAddress) :
    (start name listenAddr).Registered := by
  simp [Registered, start]

/-- **When the registry is right.** Take any run of a server, whatever its name and its address.
In every state `connections_` has exactly the connections that were accepted and not removed, one
entry each, exactly when no connection is accepted while one lives that was accepted a multiple
of `2 ^ 32` connections before. -/
theorem registered_iff {name : Bytes} {listenAddr : InetAddress}
    {p : List (RegistryEvent × ServerRegistry)} (hp : Path Step (start name listenAddr) p) :
    Throughout Registered (start name listenAddr) p ↔
      MeetsAll NotComeRound (start name listenAddr) p := by
  apply hp.throughout_iff_meetsAll_of_invariant
    (fun (s : ServerRegistry) (h : s.Registered ∧ s.Numbered) => h.1)
  · rintro s event t ⟨h, hn⟩ hst hguard
    cases event with
    | newConnection =>
        obtain rfl := Option.some.inj hst
        exact ⟨(registered_newConnection_iff h hn).mpr hguard, hn.newConnection⟩
    | removeConnecitonInLoop k =>
        obtain ⟨c, hk, hlive, rfl⟩ := exists_of_step_remove hst
        exact ⟨h.removeConnecitonInLoop hk hlive, hn.removeConnecitonInLoop hk⟩
  · rintro s event t ⟨h, hn⟩ hst ht
    cases event with
    | newConnection =>
        obtain rfl := Option.some.inj hst
        exact (registered_newConnection_iff h hn).mp ht
    | removeConnecitonInLoop k => trivial
  · exact ⟨registered_start name listenAddr, numbered_start name listenAddr⟩

/-- The address `127.0.0.1:80`. -/
def loopback : InetAddress := ⟨127, 0, 0, 1, 80⟩

/-- Three connections, of which the second one goes first. -/
theorem registered_iff_three :
    let p := trace step (start (lit "s") loopback)
      [.newConnection, .newConnection, .removeConnecitonInLoop 1, .newConnection,
        .removeConnecitonInLoop 0]
    Throughout Registered (start (lit "s") loopback) p ∧
      (Paths.last (start (lit "s") loopback) p).connections (lit "s-127.0.0.1:80#3") = some 2 :=
  ⟨(registered_iff (path_trace step _ _)).mpr (by decide +kernel), by decide +kernel⟩

/-! ## The counter comes round -/

/-- From connection `k` on, `n` connections that are accepted and removed at once, and then one
more. -/
def comings (k : ℕ) : ℕ → List RegistryEvent
  | 0 => [.newConnection]
  | n + 1 => .newConnection :: .removeConnecitonInLoop k :: comings (k + 1) n

/-- While one connection lives, the others come and go until its name is given again. -/
lemma not_registered_comings (n : ℕ) {s : ServerRegistry} (hn : s.Numbered) {j : ℕ}
    {c : AcceptedConnection} (hj : s.accepted[j]? = some c) (hlive : c.removed = false)
    (hdvd : 2 ^ 32 ∣ s.accepted.length + n - j) :
    ¬ Throughout Registered s (trace step s (comings s.accepted.length n)) := by
  have hlt : j < s.accepted.length := (List.getElem?_eq_some_iff.mp hj).1
  induction n generalizing s with
  | zero =>
      intro h
      obtain ⟨hs, ht⟩ := Paths.throughout_cons.mp h
      exact (registered_newConnection_iff hs hn).mp (Paths.throughout_nil.mp ht) j hlt
        ⟨c, hj, hlive⟩ hdvd
  | succ n ih =>
      have hnew : s.newConnection.accepted[s.accepted.length]? = some { name := s.nextName } :=
        (getElem?_newConnection _ _).mpr (.inr ⟨rfl, rfl⟩)
      set s₂ := s.newConnection.removeConnecitonInLoop s.accepted.length { name := s.nextName }
        with hs₂
      have hstep : s.newConnection.step (.removeConnecitonInLoop s.accepted.length) = some s₂ := by
        simp [step, hnew, hs₂]
      have hlen : s₂.accepted.length = s.accepted.length + 1 := by
        simp [hs₂, removeConnecitonInLoop, newConnection]
      have hj₂ : s₂.accepted[j]? = some c :=
        (getElem?_removeConnecitonInLoop hnew j c).mpr
          (.inl ⟨hlt.ne, (getElem?_newConnection j c).mpr (.inl hj)⟩)
      have hdvd₂ : 2 ^ 32 ∣ s₂.accepted.length + n - j := by
        rw [hlen, Nat.add_right_comm]
        exact hdvd
      have hn₂ : s₂.Numbered := hn.newConnection.removeConnecitonInLoop hnew
      have hnot := ih hn₂ hj₂ hdvd₂ (by omega)
      rw [hlen] at hnot
      intro h
      rw [comings, trace, show s.step .newConnection = some s.newConnection from rfl] at h
      simp only [trace, hstep] at h
      exact hnot (Paths.throughout_cons.mp (Paths.throughout_cons.mp h).2).2

/-- **A connection loses its entry.** One connection stays, `2 ^ 32 - 1` others come and go, and
the next one gets its name. -/
theorem not_registered_come_round :
    ¬ Throughout Registered (start (lit "s") loopback)
      (trace step (start (lit "s") loopback) (.newConnection :: comings 1 (2 ^ 32 - 1))) := by
  intro h
  have hn : (start (lit "s") loopback).newConnection.Numbered := (numbered_start _ _).newConnection
  have hfirst : (start (lit "s") loopback).newConnection.accepted[0]? =
      some { name := (start (lit "s") loopback).nextName } :=
    (getElem?_newConnection _ _).mpr (.inr ⟨rfl, rfl⟩)
  have hlen : (start (lit "s") loopback).newConnection.accepted.length = 1 := rfl
  have hnot := not_registered_comings (2 ^ 32 - 1) hn hfirst rfl (by rw [hlen]; norm_num)
  rw [hlen] at hnot
  exact hnot (Paths.throughout_cons.mp h).2

end ServerRegistry

end SwiftNetCore
