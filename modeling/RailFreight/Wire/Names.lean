import RailFreight.Job.Kind
import RailFreight.Job.Id
import RailFreight.Cargo
import RailFreight.User
import RailFreight.Wire.Basic

/-!
# Names on the wire

Stations, cargo, kinds of jobs and roles of tracks are sent as their names, job ids as
their texts, and users as their names. A user name is trimmed when it is read, and a
blank one is refused.
-/

namespace RailFreight

instance : Wire StationCode where
  encode s := .ofString s.name
  decode? := Json.oneOf? StationCode.ofName?

instance : Wire Cargo where
  encode c := .ofString c.name
  decode? := Json.oneOf? Cargo.ofName?

instance : Wire Cargo.Tier where
  encode t := .ofString t.name
  decode? := Json.oneOf? Cargo.Tier.ofName?

instance : Wire JobKind where
  encode k := .ofString k.name
  decode? := Json.oneOf? JobKind.ofName?

instance : Wire TrackRole where
  encode r := .ofString r.name
  decode? := Json.oneOf? TrackRole.ofName?

instance : Wire JobId where
  encode id := .ofString id.text
  decode? j := j.string?.map JobId.mk

instance : Wire User where
  encode u := .ofString u.name
  decode? j := j.string?.bind User.ofText?

end RailFreight
