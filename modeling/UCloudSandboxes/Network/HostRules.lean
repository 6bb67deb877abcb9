import Mathlib.Algebra.GroupWithZero.Nat
import UCloudSandboxes.Machine.RuleList

/-! The host's packet filter for the direct network: the rules the manager owns, and one
reconciliation of them. -/
namespace UCloudSandboxes.Network
open Machine

def ipv4 (a b c d : Nat) : Nat := a * 2 ^ 24 + b * 2 ^ 16 + c * 2 ^ 8 + d

structure Subnet where
  base : Nat
  length : Nat
deriving DecidableEq

def Subnet.contains (n : Subnet) (address : Nat) : Bool :=
  address / 2 ^ (32 - n.length) = n.base / 2 ^ (32 - n.length)

def cidr : Subnet := ⟨ipv4 100 96 0 0,16⟩

def deniedDestinations : List Subnet :=
  [⟨ipv4 10 0 0 0,8⟩,⟨ipv4 100 64 0 0,10⟩,⟨ipv4 127 0 0 0,8⟩,⟨ipv4 169 254 0 0,16⟩,
    ⟨ipv4 172 16 0 0,12⟩,⟨ipv4 192 168 0 0,16⟩]

@[ext]
structure TcpEgress where
  address : Nat
  port : Nat
deriving DecidableEq

/-- A word of a command line; addresses and ports stand for their texts. -/
inductive Word
  | text (s : String)
  | net (n : Subnet)
  | port (n : Nat)
deriving DecidableEq

instance : Coe String Word := ⟨.text⟩

inductive Chain
  | input
  | forward
  | postrouting
deriving DecidableEq

def Chain.name : Chain → String
  | .input => "INPUT"
  | .forward => "FORWARD"
  | .postrouting => "POSTROUTING"

def Chain.table : Chain → String
  | .input | .forward => "filter"
  | .postrouting => "nat"

inductive Rule
  | inputDrop
  | drop (destination : Subnet)
  | egress (endpoint : TcpEgress)
  | relay
  | broad
  | established
  | masquerade
deriving DecidableEq

namespace Rule

def chain : Rule → Chain
  | .inputDrop => .input
  | .masquerade => .postrouting
  | _ => .forward

def args : Rule → List Word
  | .inputDrop => ["-s",.net cidr,"-j","DROP"]
  | .drop destination => ["-s",.net cidr,"-d",.net destination,"-j","DROP"]
  | .egress e =>
    ["-s",.net cidr,"-d",.net ⟨e.address,32⟩,"-p","tcp","--dport",.port e.port,"-j","ACCEPT"]
  | .relay => ["-s",.net cidr,"-m","mark","--mark","0x1000000/0x1000000","-j","ACCEPT"]
  | .broad => ["-s",.net cidr,"-j","ACCEPT"]
  | .established =>
    ["-d",.net cidr,"-m","conntrack","--ctstate","RELATED,ESTABLISHED","-j","ACCEPT"]
  | .masquerade => ["-s",.net cidr,"-j","MASQUERADE"]

def check (r : Rule) : List Word :=
  match r.chain with
  | .postrouting => "iptables" :: "-t" :: "nat" :: "-C" :: (r.chain.name : Word) :: r.args
  | _ => "iptables" :: "-C" :: (r.chain.name : Word) :: r.args

/-- The rule as `iptables-save` prints it, with the TCP matcher made explicit. -/
def saved : Rule → List Word
  | .egress e =>
    ["-A","FORWARD","-s",.net cidr,"-d",.net ⟨e.address,32⟩,"-p","tcp","-m","tcp","--dport",
      .port e.port,"-j","ACCEPT"]
  | r => "-A" :: (r.chain.name : Word) :: r.args

end Rule

def dropTcpMatch : List Word → List Word
  | w :: w' :: words =>
    if w = .text "-m" ∧ w' = .text "tcp" then words else w :: dropTcpMatch (w' :: words)
  | words => words

def splitTable : List Word → Word × List Word
  | w :: table :: words => if w = .text "-t" then (table,words) else (.text "filter",w :: table :: words)
  | words => (.text "filter",words)

def appendVerb : List Word → List Word
  | w :: words => (if w = .text "-C" ∨ w = .text "-A" then .text "-A" else w) :: words
  | [] => []

/-- Table, `-A`, chain and arguments, with `-m tcp` after `-p tcp` dropped. -/
def ruleKey (command : List Word) : List Word :=
  let command := if command.head? = some (.text "iptables") then command.tail else command
  let (table,words) := splitTable command
  let words := appendVerb words
  let tcp := (words.dropWhile (· ≠ .text "-p")).tail.head? = some (Word.text "tcp")
  table :: if tcp then dropTcpMatch words else words

abbrev Tables := Chain → List Rule

inductive Place
  | top
  | bottom
deriving DecidableEq

namespace Tables

def install (t : Tables) (place : Place) (r : Rule) : Tables :=
  Function.update t r.chain (match place with | .top => r :: t r.chain | .bottom => t r.chain ++ [r])

def delete (t : Tables) (r : Rule) : Tables := Function.update t r.chain ((t r.chain).erase r)

end Tables

def iptablesSnapshot (t : Tables) : List (List Word) :=
  [Chain.input,.forward,.postrouting].flatMap fun c =>
    (t c).map fun r => ruleKey (.text "-t" :: .text c.table :: r.saved)

variable (snapshot : Option (List (List Word)))

def ensureIptables (place : Place) (r : Rule) (t : Tables) : Bool × Tables :=
  if (∃ keys ∈ snapshot, ruleKey r.check ∈ keys) ∨ r ∈ t r.chain then (false,t)
  else (true,t.install place r)

structure Host where
  tables : Tables
  recorded : List TcpEgress

structure HostConfig where
  denied : List Subnet
  egress : List TcpEgress

def denyDestinations (snapshot : Option (List (List Word))) :
    List Subnet → Bool × Tables → Bool × Tables
  | [], moved => moved
  | destination :: rest, (reordered,t) =>
    let (installed,t) := ensureIptables snapshot .top (.drop destination) t
    denyDestinations snapshot rest (reordered || installed,t)

/-- Exceptions for the configured endpoints, then no more for the recorded ones that are gone. -/
def reconcileTcpEgress (egress : List TcpEgress) (h : Host) : Host :=
  let t := egress.foldl (fun t e => (ensureIptables snapshot .top (.egress e) t).2) h.tables
  let stale := h.recorded.filter (· ∉ egress)
  ⟨stale.foldl (fun t e => t.delete (.egress e)) t,egress⟩

def ensureRelayForwardAccept (reordered : Bool) (t : Tables) : Tables :=
  -- A DROP was just inserted above it; restore precedence.
  if reordered then (ensureIptables none .top .relay (t.delete .relay)).2
  else (ensureIptables snapshot .top .relay t).2

/-- One reconciliation. `trusted` says whether `iptables-save` could be read. -/
def ensureHostRules (relays : Bool) (c : HostConfig) (trusted : Bool) (h : Host) : Host :=
  let snapshot := if trusted then some (iptablesSnapshot h.tables) else none
  let t := (ensureIptables snapshot .top .inputDrop h.tables).2
  let (reordered,t) := denyDestinations snapshot c.denied (false,t)
  let h := reconcileTcpEgress snapshot c.egress { h with tables := t }
  let t := if relays then ensureRelayForwardAccept snapshot reordered h.tables else h.tables
  let t := (ensureIptables snapshot .bottom .broad t).2
  let t := (ensureIptables snapshot .bottom .established t).2
  { h with tables := (ensureIptables snapshot .bottom .masquerade t).2 }

structure Packet where
  source : Nat
  destination : Nat
  /-- The destination port, if it is a TCP segment. -/
  tcpPort : Option Nat
  marked : Bool
  established : Bool
deriving DecidableEq

inductive Target
  | drop
  | accept
  | masquerade
deriving DecidableEq

namespace Rule

def matches? (p : Packet) : Rule → Bool
  | .inputDrop | .broad | .masquerade => cidr.contains p.source
  | .drop destination => cidr.contains p.source && destination.contains p.destination
  | .egress e => cidr.contains p.source && p.destination = e.address && p.tcpPort = some e.port
  | .relay => cidr.contains p.source && p.marked
  | .established => cidr.contains p.destination && p.established

def target : Rule → Target
  | .inputDrop | .drop _ => .drop
  | .egress _ | .relay | .broad | .established => .accept
  | .masquerade => .masquerade

end Rule

def verdict (l : List Rule) (p : Packet) : Option Target :=
  (l.find? (Rule.matches? p)).map Rule.target

inductive HostEvent
  | reconcile (c : HostConfig) (trusted : Bool)
  | remove (chain : Chain) (index : Nat)

def Host.fresh : Host := ⟨fun _ => [],[]⟩

def Host.step (relays : Bool) (h : Host) : HostEvent → Option Host
  | .reconcile c trusted => some (ensureHostRules relays c trusted h)
  | .remove chain index =>
    some { h with tables := Function.update h.tables chain ((h.tables chain).eraseIdx index) }

end UCloudSandboxes.Network
