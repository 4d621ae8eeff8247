import Radvd.Derived
import Radvd.Send.Options

/-!
# What is transmitted

A message of an RA is the header followed by options that follow each other in
the list of `build_ra_options` (`carries_of_mem_sent`), and the interface that it
is built from is derived from one of the configuration (`sentBy_reached`).
-/

namespace Radvd

open Wire Tlv Runs Packing Grammar

/-! ## One RA -/

/-- The options of an RA in a message. -/
def raOptions (message : Bytes) : List Bytes :=
  options (message.drop 16)

theorem filter_blocks {order : ByteOrder} {kernel : Kernel} {iface : Interface} {dest : In6Addr}
    {sbl : SafeBufferList} (parsed : iface.Parsed)
    (built : buildRaOptions order kernel iface dest = .ok sbl) :
    sbl.blocks.filter (· ≠ []) = allOptions order kernel iface := by
  have filled : ∀ option ∈ allOptions order kernel iface, decide (option ≠ []) = true := by
    intro option member
    exact decide_eq_true (wellFormed_of_mem_allOptions parsed member).ne_nil
  have kept := List.filter_eq_self.mpr filled
  rw [blocks_of_buildRaOptions parsed built]
  split
  · rename_i none
    rw [allOptions, none, List.nil_append] at kept ⊢
    simpa using kept
  · exact kept

theorem advertises_of_mem_sent {env : SendEnv} {warned : Bool} {iface : Interface}
    {dest : Option In6Addr} {message : Bytes}
    (sent : message ∈ (sendRa env warned iface dest).sent) : iface.advSendAdvert = true := by
  unfold sendRa at sent
  split at sent
  · cases sent
  · rename_i advertises
    simpa using advertises

/-- The header of the message and its options, which lie in a row among the
options of the RA. -/
structure Carries (info : RaHeaderInfo) (ceaseAdv : Bool) (all : List Bytes) (message : Bytes) :
    Prop where
  message_eq : message = raHeaderBlock info ceaseAdv ++ (raOptions message).flatten
  options_infix : raOptions message <:+: all

theorem carries_of_mem_sent {env : SendEnv} {warned : Bool} {iface : Interface}
    {dest : Option In6Addr} {message : Bytes} (parsed : iface.Parsed)
    (sent : message ∈ (sendRa env warned iface dest).sent) :
    Carries iface.raHeaderInfo (ceases env warned iface)
      (allOptions env.order env.kernel (agedIface env iface dest)) message := by
  have aged := parsed_agedIface parsed env dest
  rw [sendRa] at sent
  split at sent
  · cases sent
  dsimp only at sent
  rcases built : buildRa env warned (agedIface env iface dest) (dest.getD allHostsAddr) with
    exit | ⟨warned', raHdr, raOpts⟩
  · rw [built] at sent
    cases sent
  rcases buildRa_ok built with ⟨rfl, -, sbl, options, rfl⟩
  simp only [built, sendOptions_blocks] at sent
  rcases exists_run_of_mem_sendBins sent with ⟨run, packed, rfl⟩
  have inBlocks := (infix_of_mem_pack packed).filter (· ≠ [])
  rw [filter_blocks aged options] at inBlocks
  have formed : ∀ option ∈ run.filter (· ≠ []), WellFormed option :=
    fun option member => wellFormed_of_mem_allOptions aged (inBlocks.subset member)
  have found : raOptions (Radvd.message (raHeaderBlock (agedIface env iface dest).raHeaderInfo
      (ceases env warned (agedIface env iface dest))) run) = run.filter (· ≠ []) := by
    rw [Radvd.message, raOptions, ← List.flatten_filter_ne_nil]
    rw [List.drop_left' (length_raHeaderBlock ..)]
    exact options_flatten formed
  have ceasing : ceases env warned (agedIface env iface dest) = ceases env warned iface := by
    simp only [ceases, ceaseAdv_agedIface]
  rw [raHeaderInfo_agedIface, ceasing] at found ⊢
  constructor
  · rw [found, Radvd.message, List.flatten_filter_ne_nil]
  · rw [found]
    exact inBlocks

/-! ## The whole daemon -/

/-- The interface has the property for the interface that the configuration has
at its position. -/
def Configured (ifaces : List Interface) (property : Interface → Interface → Prop)
    (position : Nat) (iface : Interface) : Prop :=
  ∃ parsed, ifaces[position]? = some parsed ∧ property parsed iface

section

variable {allowed : SendEnv → Prop} {shutdown : Prop} {ifaces : List Interface}
  {property : Interface → Interface → Prop}

theorem stable_configured
    (stable : ∀ parsed ∈ ifaces, Stable allowed shutdown (property parsed)) (position : Nat) :
    Stable allowed shutdown (Configured ifaces property position) := by
  rcases found : ifaces[position]? with _ | parsed
  · have never : ∀ iface, ¬Configured ifaces property position iface := by
      rintro iface ⟨parsed, listed, -⟩
      rw [found] at listed
      cases listed
    constructor <;> intros <;> exact absurd ‹Configured ifaces property position _› (never _)
  · have same : Configured ifaces property position = property parsed := by
      funext iface
      simp [Configured, found]
    rw [same]
    exact stable parsed (List.mem_of_getElem? found)

/-- Everything that is sent in a run from a configuration is built from an
interface that has the property. -/
theorem sentBy_reached (stable : ∀ parsed ∈ ifaces, Stable allowed shutdown (property parsed))
    (initial : ∀ parsed ∈ ifaces, property parsed parsed) {warned : Bool}
    {events : List LifeEvent} {last : Daemon}
    (run : Run Daemon.Lives ⟨ifaces, warned⟩ events last)
    (within : ∀ event ∈ events, event.Within allowed shutdown) {event : LifeEvent}
    (next : event.Within allowed shutdown) :
    ∀ sent ∈ (last.live event).sent, ∀ message ∈ sent.messages,
      SentBy allowed (Configured ifaces property sent.position) message := by
  have start : Daemon.Has ⟨ifaces, warned⟩ (Configured ifaces property) := by
    intro position parsed found
    exact ⟨parsed, found, initial parsed (List.mem_of_getElem? found)⟩
  have reached := has_run (stable_configured stable) run within start
  exact sentBy_live (stable_configured stable) next reached

end

theorem derived_of_gives {definition : Ifacedef} {iface : Interface}
    (gives : definition.Gives iface) : Derived iface iface := by
  apply derived_of_unready
  rw [gives.stateInfo]
  rfl

/-! ## Runs that are computed -/

/-- The daemon after the events if the program survives them. -/
def Daemon.follow (daemon : Daemon) : List LifeEvent → Option Daemon
  | [] => some daemon
  | event :: rest =>
      if (daemon.live event).exit = none then (daemon.live event).daemon.follow rest else none

theorem Daemon.run_of_follow {daemon last : Daemon} {events : List LifeEvent}
    (followed : daemon.follow events = some last) : Run Daemon.Lives daemon events last := by
  induction events generalizing daemon with
  | nil =>
      cases followed
      exact .nil _
  | cons event rest ih =>
      unfold Daemon.follow at followed
      split at followed
      · rename_i survives
        exact .cons ⟨survives, rfl⟩ (ih followed)
      · cases followed

/-- What a configuration with one interface gives, and the daemon after the
events. -/
def reached (definition : Ifacedef) (events : List LifeEvent) :
    Option (List Interface × Daemon) :=
  (readinConfig definition []).toOption.bind fun ifaces =>
    (Daemon.follow ⟨ifaces, false⟩ events).map fun last => (ifaces, last)

theorem exists_reached {α : Type} {observe : List Interface × Daemon → α}
    {definition : Ifacedef} {events : List LifeEvent} {seen : α}
    (found : (reached definition events).map observe = some seen) :
    ∃ ifaces last, readinConfig definition [] = .ok ifaces ∧
      Run Daemon.Lives ⟨ifaces, false⟩ events last ∧ observe (ifaces, last) = seen := by
  unfold reached at found
  rcases read : readinConfig definition [] with refusal | ifaces
  · rw [read] at found
    cases found
  · rw [read] at found
    simp only [Except.toOption, Option.bind_some, Option.map_map, Option.map_eq_some_iff] at found
    rcases found with ⟨last, followed, same⟩
    exact ⟨ifaces, last, rfl, Daemon.run_of_follow followed, same⟩

/-- The options of everything that is sent for an event. -/
def Daemon.optionsSent (daemon : Daemon) (event : LifeEvent) : List Bytes :=
  (daemon.live event).sent.flatMap fun sent => sent.messages.flatMap raOptions

theorem exists_of_mem_optionsSent {daemon : Daemon} {event : LifeEvent} {option : Bytes}
    (member : option ∈ daemon.optionsSent event) :
    ∃ sent ∈ (daemon.live event).sent, ∃ message ∈ sent.messages, option ∈ raOptions message := by
  rcases List.mem_flatMap.mp member with ⟨sent, sentMem, later⟩
  rcases List.mem_flatMap.mp later with ⟨message, messageMem, listed⟩
  exact ⟨sent, sentMem, message, messageMem, listed⟩

/-- An event for which an option of a certain kind is the first that is sent. -/
theorem exists_option_reached {definition : Ifacedef} {events : List LifeEvent}
    {event : LifeEvent} {option : Bytes}
    (found : (reached definition events).map (fun seen => (seen.2.optionsSent event).head?) =
      some (some option)) :
    ∃ ifaces last, readinConfig definition [] = .ok ifaces ∧
      Run Daemon.Lives ⟨ifaces, false⟩ events last ∧ ∃ sent ∈ (last.live event).sent,
        ∃ message ∈ sent.messages, option ∈ raOptions message := by
  rcases exists_reached found with ⟨ifaces, last, read, run, first⟩
  exact ⟨ifaces, last, read, run, exists_of_mem_optionsSent (List.mem_of_head? first)⟩

def kickoffAt (now : Timespec) : LifeEvent :=
  .handles (.start 0 .ethernet ⟨now, now, .ethernet, fun _ => routerEnv now, now⟩)

def timerAt (now : Timespec) : LifeEvent :=
  .handles (.timer 0 ⟨.ethernet, fun _ => routerEnv now, 0, now⟩)

end Radvd
