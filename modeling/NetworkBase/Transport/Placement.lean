import NetworkBase.Transport.SocketHandler

/-!
An engine holds sockets of different classes.  Where their members are the cases of one type, a
virtual method is dispatched by taking the members out of the case, calling the method of the class
and putting the members back; all of this keeps what a virtual method may do.
-/

namespace NetworkBase
namespace Socket

variable {σ ρ α : Type}

/-- The socket with other members of a subclass in place of its own. -/
def placed (place : σ → ρ) (socket : Socket σ) : Socket ρ :=
  { socket with sub := place socket.sub }

/-- Call a method of the class whose members these are. -/
def dispatch (place : σ → ρ) (members : σ) (method : Socket σ → Option (Socket σ))
    (socket : Socket ρ) : Option (Socket ρ) :=
  (method (socket.placed fun _ => members)).map (placed place)

/-- Call a method with a value. -/
def dispatchValue (place : σ → ρ) (members : σ) (method : Socket σ → Option (α × Socket σ))
    (socket : Socket ρ) : Option (α × Socket ρ) :=
  (method (socket.placed fun _ => members)).map fun (result, next) => (result, next.placed place)

theorem placed_armTimeout (place : σ → ρ) (now timeoutMs : Nat) (socket : Socket σ) :
    (socket.armTimeout now timeoutMs).placed place =
      (socket.placed place).armTimeout now timeoutMs := by
  rw [armTimeout, armTimeout]
  split
  · rfl
  · rfl

theorem placed_connect (place : σ → ρ) (now timeoutMs : Nat) (socket : Socket σ) :
    (socket.connect now timeoutMs).placed place = (socket.placed place).connect now timeoutMs := by
  have armed := placed_armTimeout place now timeoutMs socket
  have status_eq : ((socket.placed place).armTimeout now timeoutMs).status =
      (socket.armTimeout now timeoutMs).status := by rw [← armed, placed]
  have ip_eq : (socket.placed place).ip = socket.ip := rfl
  simp only [connect, ip_eq, status_eq]
  split
  · rfl
  split
  · rw [← armed]
    rfl
  · exact armed

/-- The steps of a virtual method do not depend on where the members are. -/
theorem SubSteps.placed {allowed : Event → Prop} {before after : Socket σ} (place : σ → ρ)
    (steps : SubSteps allowed before after) :
    SubSteps allowed (before.placed place) (after.placed place) := by
  refine Relation.ReflTransGen.lift (Socket.placed place) ?_ _ _ steps
  intro first second step
  cases step with
  | members sub => exact .members (first.placed place) (place sub)
  | event event ok => exact .event (first.placed place) event ok
  | setProtocol protocol => exact .setProtocol (first.placed place) protocol
  | setIpPort ip port => exact .setIpPort (first.placed place) ip port
  | connect now timeoutMs =>
      change SubStep allowed (first.placed place) ((first.connect now timeoutMs).placed place)
      rw [placed_connect]
      exact .connect (first.placed place) now timeoutMs
  | close => exact .close (first.placed place)

/-- Taking the members of a socket out and putting them back. -/
theorem placed_placed {place : σ → ρ} {members : σ} {socket : Socket ρ}
    (members_eq : place members = socket.sub) :
    (socket.placed fun _ => members).placed place = socket := by
  rw [placed, placed, members_eq]

variable {place : σ → ρ} {members : σ} {socket after : Socket ρ} {allowed : Event → Prop}

/-- A dispatched method takes the steps of the method of the class. -/
theorem dispatch_within {method : Socket σ → Option (Socket σ)} (event : Event)
    (members_eq : place members = socket.sub)
    (within : ∀ socket after, method socket = some after →
      SubSteps allowed (socket.emit event) after)
    (execution : dispatch place members method socket = some after) :
    SubSteps allowed (socket.emit event) after := by
  rw [dispatch, Option.map_eq_some_iff] at execution
  obtain ⟨next, called, rfl⟩ := execution
  have steps := (within _ next called).placed place
  have shown : ((socket.placed fun _ => members).emit event).placed place =
      ((socket.placed fun _ => members).placed place).emit event := rfl
  rwa [shown, placed_placed members_eq] at steps

theorem dispatchValue_within {method : Socket σ → Option (α × Socket σ)} {result : α}
    (members_eq : place members = socket.sub)
    (within : ∀ next, method (socket.placed fun _ => members) = some (result, next) →
      SubSteps allowed (socket.placed fun _ => members) next)
    (execution : dispatchValue place members method socket = some (result, after)) :
    SubSteps allowed socket after := by
  rw [dispatchValue, Option.map_eq_some_iff] at execution
  obtain ⟨⟨value, next⟩, called, answer⟩ := execution
  cases answer
  have steps := (within next called).placed place
  rwa [placed_placed members_eq] at steps

end Socket
end NetworkBase
