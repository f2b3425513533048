import Primacy.LeadNode.Rehearsal
import Primacy.Main
import Primacy.Proofs.Election.Announcement
import Primacy.Proofs.Election.Supersession
import Primacy.Proofs.Election.Release
import Primacy.Proofs.Election.Standstill
import Primacy.Proofs.Election.Indifference
import Primacy.Proofs.Election.Locality
import Primacy.Proofs.Election.Restart
import Primacy.Proofs.Election.Tenancy
import Primacy.Proofs.Election.Glance
import Primacy.Proofs.Election.Publication
import Primacy.Proofs.Election.Watch
import Primacy.Proofs.Scenario.Run
import Primacy.Proofs.Failover.Reopening
import Primacy.Proofs.Failover.Trace
import Primacy.Proofs.Failover.Entries
import Primacy.Proofs.Failover.Overflow
import Primacy.Proofs.Election.Site
import Primacy.Proofs.Registry.Cut
import Primacy.Proofs.Registry.Turns
import Primacy.Proofs.Lock.Wakeup
import Primacy.Proofs.Lock.Refinement
import Primacy.Proofs.Settings.Override
import Primacy.Proofs.Failover.Distance
import Primacy.Proofs.Failover.Victims
import Primacy.Proofs.Failover.Refreshment
import Primacy.Proofs.Failover.Journal
import Primacy.Proofs.Failover.Takeover
import Primacy.Proofs.Failover.StartGate
import Primacy.Proofs.Registry.Namespace
import Primacy.Proofs.Registry.Outcome
import Primacy.Proofs.Files.Appended
import Primacy.Proofs.Settings.Verbatim
