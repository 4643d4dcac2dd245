import RailFreight.Notifier
import RailFreight.Wire.Names

/-!
# Events and subscribers on the wire
-/

namespace RailFreight

instance : Wire StationChanged where
  encode e := .record [("station_id", encode e.station)]
  decode? j := do
    let f ← j.fields? ["station_id"]
    return { station := ← f.required "station_id" decode? }

/-- The document of a subscriber number: the number. -/
def SubscriberId.encode (id : SubscriberId) : Json := .ofNat id

/-- The subscriber number of a document. -/
def SubscriberId.decode? (j : Json) : Option SubscriberId := j.below? limit64

instance : Wire SubscriberInfo where
  encode s := .record
    [("id", SubscriberId.encode s.id), ("username", encode s.user),
     ("stations", Wire.encodeList s.stations)]
  decode? j := do
    let f ← j.fields? ["id", "username", "stations"]
    return {
      id := ← f.required "id" SubscriberId.decode?
      user := ← f.required "username" decode?
      stations := ← f.required "stations" Wire.decodeList? }

instance : Wire NotifierStats where
  encode s := .record
    [("published", .ofNat s.published), ("delivered", .ofNat s.delivered),
     ("dropped_full", .ofNat s.droppedFull), ("dropped_timeout", .ofNat s.droppedTimeout),
     ("pruned_subscribers", .ofNat s.prunedSubscribers)]
  decode? j := do
    let f ← j.fields?
      ["published", "delivered", "dropped_full", "dropped_timeout", "pruned_subscribers"]
    return {
      published := ← f.required "published" (Json.below? limit64)
      delivered := ← f.required "delivered" (Json.below? limit64)
      droppedFull := ← f.required "dropped_full" (Json.below? limit64)
      droppedTimeout := ← f.required "dropped_timeout" (Json.below? limit64)
      prunedSubscribers := ← f.required "pruned_subscribers" (Json.below? limit64) }

end RailFreight
