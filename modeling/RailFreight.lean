import RailFreight.Main
import RailFreight.Proofs.Accounting
import RailFreight.Proofs.Idempotence
import RailFreight.Proofs.Ownership
import RailFreight.Proofs.Settling
import RailFreight.Proofs.Continuity
import RailFreight.Proofs.Announcement
import RailFreight.Proofs.Listings
import RailFreight.Proofs.Issuing
import RailFreight.Proofs.Maximality
import RailFreight.Proofs.Totals
import RailFreight.Proofs.Headroom
import RailFreight.Proofs.Draws
import RailFreight.Proofs.Supply
import RailFreight.Proofs.Ledger
import RailFreight.Proofs.Loads
import RailFreight.Proofs.Overflow
import RailFreight.Proofs.Starvation
import RailFreight.Proofs.Session
import RailFreight.Proofs.Delivery
import RailFreight.Proofs.NetEffect
import RailFreight.Proofs.Separation
import RailFreight.Proofs.Subscriptions
import RailFreight.Proofs.Messages
import RailFreight.Proofs.Outcomes
import RailFreight.Proofs.Taking
import RailFreight.Proofs.Offers
import RailFreight.Proofs.Merging
import RailFreight.Proofs.Reports
import RailFreight.Proofs.Batches
import RailFreight.Proofs.Turns
import RailFreight.Proofs.Folding
import RailFreight.Proofs.Uniformity
import RailFreight.Proofs.Findings
import RailFreight.Proofs.Identifiers
import RailFreight.Proofs.Formats
