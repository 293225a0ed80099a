import StockAnalysis.Ledger.Orders
import StockAnalysis.Ledger.Structure
import StockAnalysis.Ledger.History
import StockAnalysis.Book.Evaluation
import StockAnalysis.Book.FeeBound
import StockAnalysis.Book.Holdings
import StockAnalysis.Book.Lifecycle
import StockAnalysis.Intents.Consistency
import StockAnalysis.Intents.Retries
import StockAnalysis.Delivery.Admission
import StockAnalysis.Delivery.Mirror
import StockAnalysis.Delivery.Finality
import StockAnalysis.Positions.Attribution
import StockAnalysis.Positions.StrategyRows
import StockAnalysis.NewsFlash.Histories
import StockAnalysis.Canonical.Identities
import StockAnalysis.Book.FeeDescriptor
import StockAnalysis.Monitor.SignalState
