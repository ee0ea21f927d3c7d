import ServiceRegistry.CommandLine.Client
import ServiceRegistry.CommandLine.Line
import ServiceRegistry.CommandLine.Serve
import ServiceRegistry.Main
import ServiceRegistry.Network.Steps
import ServiceRegistry.Proofs.Admission
import ServiceRegistry.Proofs.Cluster.Agreement
import ServiceRegistry.Proofs.Cluster.Alone
import ServiceRegistry.Proofs.Cluster.Interference
import ServiceRegistry.Proofs.Cluster.Outsider
import ServiceRegistry.Proofs.Cluster.Pointer
import ServiceRegistry.Proofs.Cluster.Starting
import ServiceRegistry.Proofs.Cluster.Succession
import ServiceRegistry.Proofs.Deliveries
import ServiceRegistry.Proofs.Forwarding
import ServiceRegistry.Proofs.Service.Failures
import ServiceRegistry.Proofs.Service.Seeking
import ServiceRegistry.Proofs.Service.Waking
import ServiceRegistry.Proofs.Store.Beats
import ServiceRegistry.Proofs.Store.Rounds
import ServiceRegistry.Proofs.Store.Tenure
import ServiceRegistry.Proofs.Time.Readable
import ServiceRegistry.Service.Script
import ServiceRegistry.Settings.Json
import ServiceRegistry.Settings.Load
