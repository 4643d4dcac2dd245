import RailFreight.Network.Lifecycle

/-!
# The job board

The *board* stands between the users and the network. It answers listings from copies of
the queues, which it renews after every change, and announces the stations whose
listings may have changed.
-/

namespace RailFreight

/-- A network with the listings that are shown of it. -/
structure Board where
  network : Network
  /-- The queue of every station, as it is shown. -/
  listings : Table StationCode (List Job)
  deriving DecidableEq

/-- The answer of a board to a request. -/
structure BoardReply (α : Type) where
  result : Except Refusal α
  /-- The stations that are announced, in order. -/
  announced : List StationCode
  /-- The board afterwards. -/
  board : Board

namespace Board

/-- Shows the queues of some stations as they are now. -/
def publish (listings : Table StationCode (List Job)) (net : Network) :
    List StationCode → Table StationCode (List Job)
  | [] => listings
  | code :: codes =>
    match net.station? code with
    | none => publish listings net codes
    | some s => publish (listings.insert code s.queue) net codes

/-- A board over a network. -/
def new (net : Network) : Board where
  network := net
  listings := publish Table.empty net net.stations.keys

/-- The jobs of a station that are shown to `user`. -/
def listJobs (b : Board) (code : StationCode) (user : Option User) : List Job :=
  (b.listings.getD code []).filter (Network.shows user)

/-- Reserves a job. Only the listing of its station changes, and nothing is announced. -/
def reserve (b : Board) (user : User) (id : JobId) : Faulty (BoardReply Job) := do
  match ← b.network.reserve user id with
  | (.error refusal, _) => return ⟨.error refusal, [], b⟩
  | (.ok job, network) =>
    return ⟨.ok job, [], { network, listings := publish b.listings network [job.origin] }⟩

/-- Renews all listings after a transition, and announces the stations it notifies. -/
def commit (b : Board) : Reply Transition → BoardReply Transition
  | (.error refusal, _) => ⟨.error refusal, [], b⟩
  | (.ok transition, network) =>
    ⟨.ok transition, transition.notified,
      { network, listings := publish b.listings network network.stations.keys }⟩

/-- Takes a reserved job. -/
def take (b : Board) (user : User) (id : JobId) : Faulty (BoardReply Transition) := do
  return b.commit (← b.network.take user id)

/-- Finishes an active job. -/
def finish (b : Board) (user : User) (id : JobId) : Faulty (BoardReply Transition) := do
  return b.commit (← b.network.finish user id)

/-- The announcement of a station that is asked for without any change. -/
def notifyStation (_ : Board) (code : StationCode) : List StationCode := [code]

end Board

end RailFreight
