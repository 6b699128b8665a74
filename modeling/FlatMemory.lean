import FlatMemory.CommandLine
import FlatMemory.Main
import FlatMemory.Session
import FlatMemory.Text.Bytes
import FlatMemory.Text.Numeral
import FlatMemory.Proofs.Collecting
import FlatMemory.Proofs.LastWriter
import FlatMemory.Proofs.OneShot
import FlatMemory.Proofs.Outcome
import FlatMemory.Proofs.Listing
import FlatMemory.Proofs.Exit
import FlatMemory.Proofs.SharedSource
import FlatMemory.Proofs.MoreRoom
import FlatMemory.Proofs.Reachable
import FlatMemory.Proofs.LogOfRun
import FlatMemory.Proofs.Endless
import FlatMemory.Proofs.BoundedReading
import FlatMemory.Proofs.Interruptions
import FlatMemory.Proofs.Provenance
import FlatMemory.Proofs.Walk
import FlatMemory.Proofs.Exchange
import FlatMemory.Proofs.Rounds
import FlatMemory.Proofs.Mishaps
import FlatMemory.Proofs.LogChoice
import FlatMemory.Proofs.ReadBack
import FlatMemory.Proofs.Process
