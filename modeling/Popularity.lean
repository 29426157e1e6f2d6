import Popularity.Main
import Popularity.Proofs.Engine.Oblivious
import Popularity.Proofs.Engine.Transparent
import Popularity.Proofs.Traffic.Drift
import Popularity.Proofs.Traffic.Staleness
import Popularity.Proofs.Cache.Growth
import Popularity.Proofs.Cache.Lives
import Popularity.Proofs.Database.Accounts
import Popularity.Proofs.Database.Atomicity
import Popularity.Proofs.Service.Recording
import Popularity.Proofs.Traffic.Course
import Popularity.Proofs.Traffic.Life
import Popularity.Proofs.Traffic.Mirror
import Popularity.Proofs.Traffic.Overrun
import Popularity.Proofs.Database.Locks
import Popularity.Proofs.Database.Calm
import Popularity.Proofs.Database.SerialOrder
import Popularity.Proofs.Background.Schedule
import Popularity.Proofs.Database.Lasting
import Popularity.Proofs.Database.Merging
import Popularity.Proofs.Engine.ReadAll
import Popularity.Proofs.Cache.Taint
import Popularity.Proofs.Background.Roster
import Popularity.Proofs.Settings
import Popularity.Proofs.Engine.Endings
import Popularity.Proofs.Tool.Exit
import Popularity.Proofs.Database.Lookups
import Popularity.Proofs.Engine.Views
import Popularity.Proofs.Database.Bulk
import Popularity.Proofs.Cache.Apart
import Popularity.Proofs.Cache.Accepted
import Popularity.Proofs.Settings.Layers
import Popularity.Proofs.Engine.Unconsulted
import Popularity.Proofs.Tool.Unobserved
import Popularity.Proofs.CommandLine.RoundTrip
import Popularity.Proofs.Json.Items
